import SearchWords.Proofs.Automaton.Rounds

/-!
# Running the automaton on other words

The automaton looks at a word in one place only: a word without text and a word of nothing but
wildcards are refused, and `leaf_eq` says that this is all that is asked of a word. Let `f` replace
words by words of the same class. Then `f` commutes with every part of the automaton, from `leaf` to
`run`: a run on other words makes the same moves and fails in the same way. The run on other words
is a functional image of the given one, `mapWords` taking stacks to stacks and states to states, so
that no relation between the two has to be carried along. `step_mapWords` is one round of this
simulation and `run_mapWords` all of it.
-/

namespace SearchWords

/-! ## Classes of words -/

/-- What can be wrong with a word. -/
inductive Word.Class where
  | empty
  | wildcards
  | searchable
deriving DecidableEq, Repr

/-- A word is empty, or it has no character but wildcards, or it can be searched for. -/
def Word.toClass (w : Word) : Word.Class :=
  if w.text = "" then .empty else if Word.onlyWildcards w.text then .wildcards else .searchable

/-! ## Replacing words -/

section

variable (f : Word → Word)

def Token.mapWord : Token → Token
  | .word w => .word (f w)
  | token => token

@[simp] theorem Token.kind_mapWord (token : Token) : (token.mapWord f).kind = token.kind := by
  cases token <;> rfl

@[simp] theorem Token.mapWord_eq_stop_iff {token : Token} :
    token.mapWord f = .stop ↔ token = .stop := by
  cases token <;> simp [mapWord]

def Expr.mapWords : Expr → Expr
  | .word w => .word (f w)
  | .and l r => .and l.mapWords r.mapWords
  | .or l r => .or l.mapWords r.mapWords
  | .paren e => .paren e.mapWords
  | .exclude e => .exclude e.mapWords

theorem Expr.mapWords_mapWords (g : Word → Word) (e : Expr) :
    (e.mapWords f).mapWords g = e.mapWords (g ∘ f) := by
  induction e with
  | word w => rfl
  | and l r ihl ihr => simp [mapWords, ihl, ihr]
  | or l r ihl ihr => simp [mapWords, ihl, ihr]
  | paren e ih => simp [mapWords, ih]
  | exclude e ih => simp [mapWords, ih]

theorem Expr.leaves_mapWords (e : Expr) : (e.mapWords f).leaves = e.leaves.map f := by
  induction e with
  | word w => rfl
  | and l r ihl ihr => simp [mapWords, leaves, ihl, ihr]
  | or l r ihl ihr => simp [mapWords, leaves, ihl, ihr]
  | paren e ih => exact ih
  | exclude e ih => exact ih

namespace Automaton

def Entry.mapWords : Entry → Entry
  | .terminal token index => .terminal (token.mapWord f) index
  | .node e height => .node (e.mapWords f) height

/-- A stack with all of its words replaced, those of its expressions included. -/
def Stack.mapWords (stack : Stack) : Stack :=
  stack.map (Entry.mapWords f)

def Reduction.mapWords (r : Reduction) : Reduction where
  op := r.op
  expr := r.expr.mapWords f
  height := r.height
  leftmost := r.leftmost
  below := r.below.mapWords f

def State.mapWords (s : State) : State where
  stack := s.stack.mapWords f
  rest := s.rest.map (Token.mapWord f)
  index := s.index

def Outcome.mapWords : Outcome → Outcome
  | .next s => .next (s.mapWords f)
  | .done result => .done (result.map (Expr.mapWords f))

@[simp] theorem Reduction.stack_mapWords (r : Reduction) :
    (r.mapWords f).stack = r.stack.mapWords f := rfl

@[simp] theorem Reduction.leftmost_mapWords (r : Reduction) :
    (r.mapWords f).leftmost = r.leftmost := rfl

@[simp] theorem Reduction.move_mapWords (r : Reduction) : (r.mapWords f).move = r.move := rfl

@[simp] theorem Entry.terminal?_mapWords (entry : Entry) :
    (entry.mapWords f).terminal? = entry.terminal? := by
  cases entry <;> simp [mapWords, terminal?]

@[simp] theorem Entry.height?_mapWords (entry : Entry) :
    (entry.mapWords f).height? = entry.height? := by
  cases entry <;> rfl

/-- The rightmost token is told by its kind and its index, so it stays the same. -/
@[simp] theorem topTerminal?_mapWords (stack : Stack) :
    topTerminal? (stack.mapWords f) = topTerminal? stack := by
  simp [topTerminal?, Stack.mapWords, List.findSome?_map, Function.comp_def]

theorem accepts_mapWords (slot : Slot) (entry : Entry) :
    slot.accepts (entry.mapWords f) = slot.accepts entry := by
  cases slot <;> cases entry <;> simp [Slot.accepts, Entry.mapWords]

theorem handle_mapWords (p : Production) (stack : Stack) :
    p.handle (stack.mapWords f) = (p.handle stack).map (Entry.mapWords f) := by
  rw [Production.handle, Production.handle, Stack.mapWords, ← List.map_take, List.map_reverse]

/-- A form asks for the kinds of tokens only, so the same productions fit. -/
theorem fits_mapWords (p : Production) (stack : Stack) :
    p.fits (stack.mapWords f) = p.fits stack := by
  rw [Production.fits, Production.fits, handle_mapWords, List.zip_map_left, List.all_map]
  simp [Stack.mapWords, Function.comp_def, accepts_mapWords]

theorem heightOver_mapWords (handle : List Entry) :
    heightOver (handle.map (Entry.mapWords f)) = heightOver handle := by
  simp [heightOver, List.filterMap_map]

theorem fault_mapWords (stack : Stack) (kind : Token.Kind) :
    fault (stack.mapWords f) kind = fault stack kind := by
  cases kind with
  | rparen =>
    rcases stack with _ | ⟨a, _ | ⟨⟨token, index⟩ | ⟨e, height⟩, stack⟩⟩
    · rfl
    · rfl
    · cases token <;> rfl
    · rfl
  | _ => rfl

/-- A stack without a handle is blamed for the same fault at the same token. -/
theorem blame_mapWords (stack : Stack) : blame (stack.mapWords f) = blame stack := by
  simp only [blame, topTerminal?_mapWords, fault_mapWords]

theorem finish_mapWords (stack : Stack) :
    finish (stack.mapWords f) = (finish stack).map (Expr.mapWords f) := by
  rcases stack with _ | ⟨_ | _, _ | ⟨b, _ | ⟨c, stack⟩⟩⟩ <;> rfl

end Automaton

end

/-! ## Runs on other words -/

namespace Automaton

variable {f : Word → Word} (hf : ∀ w, (f w).toClass = w.toClass)

theorem leaf_eq (w : Word) (index : Option Nat) :
    leaf w index =
      match w.toClass with
      | .empty => .error (.malformed .emptyPhrase index)
      | .wildcards => .error (.malformed .onlyWildcards index)
      | .searchable => .ok (.word w) := by
  unfold leaf Word.toClass
  repeat' split
  all_goals simp_all

include hf

theorem leaf_mapWords (w : Word) (index : Option Nat) :
    leaf (f w) index = (leaf w index).map (Expr.mapWords f) := by
  rw [leaf_eq, leaf_eq, hf]
  cases w.toClass <;> rfl

/-- Of a handle, only the word is looked at. What else it is made of is told from its entries being
tokens or expressions. -/
theorem build_mapWords (op : Expr.Op) (handle : List Entry) :
    build op (handle.map (Entry.mapWords f)) = (build op handle).map (Expr.mapWords f) := by
  cases op with
  | word =>
    rcases handle with _ | ⟨⟨token, index⟩ | ⟨e, height⟩, rest⟩
    · rfl
    · cases token with
      | word w => exact leaf_mapWords hf w index
      | _ => rfl
    · rfl
  | and =>
    rcases handle with _ | ⟨_ | _, _ | ⟨_, _ | ⟨_ | _, rest⟩⟩⟩ <;> rfl
  | or =>
    rcases handle with _ | ⟨_ | _, _ | ⟨_, _ | ⟨_ | _, rest⟩⟩⟩ <;> rfl
  | paren =>
    rcases handle with _ | ⟨_, _ | ⟨_ | _, _ | ⟨_, rest⟩⟩⟩ <;> rfl
  | exclude =>
    rcases handle with _ | ⟨_, _ | ⟨_ | _, rest⟩⟩ <;> rfl

theorem read_mapWords (p : Production) (stack : Stack) :
    p.read (stack.mapWords f) = (p.read stack).map (Reduction.mapWords f) := by
  have hbelow : (stack.mapWords f).drop p.form.length =
      Stack.mapWords f (stack.drop p.form.length) := List.map_drop.symm
  simp only [Production.read, handle_mapWords, heightOver_mapWords, build_mapWords hf, hbelow,
    List.findSome?_map, Function.comp_def, Entry.terminal?_mapWords]
  cases (p.handle stack).findSome? fun entry ↦ entry.terminal? with
  | none => rfl
  | some leftmost =>
    simp only
    split
    · rfl
    · cases build p.op (p.handle stack) <;> rfl

theorem reduce_mapWords (stack : Stack) :
    reduce (stack.mapWords f) = (reduce stack).map (Reduction.mapWords f) := by
  simp only [reduce, fits_mapWords]
  cases productions.find? (·.fits stack) with
  | none => rw [blame_mapWords]; rfl
  | some p => exact read_mapWords hf p stack

theorem reduceAll_mapWords (stack : Stack) :
    reduceAll (stack.mapWords f) =
      ((reduceAll stack).1, (reduceAll stack).2.map (Stack.mapWords f)) := by
  fun_induction reduceAll stack with
  | case1 stack failure hr =>
    rw [reduceAll_eq_match, reduce_mapWords hf, hr]
    rfl
  | case2 stack r hr htop =>
    rw [reduceAll_eq_match, reduce_mapWords hf, hr]
    simp [Except.map, htop]
  | case3 stack r hr top index htop hlt =>
    rw [reduceAll_eq_match, reduce_mapWords hf, hr]
    simp [Except.map, htop, hlt]
  | case4 stack r hr top index htop hge moves result hall ih =>
    rw [reduceAll_eq_match, reduce_mapWords hf, hr]
    simp [Except.map, htop, hge, ih, hall]

theorem step_mapWords (round : Nat) (s : State) :
    step round (s.mapWords f) = ((step round s).1, (step round s).2.mapWords f) := by
  obtain ⟨stack, rest, n⟩ := s
  simp only [step, State.mapWords, topTerminal?_mapWords]
  cases topTerminal? stack with
  | none => rfl
  | some top =>
    cases rest with
    | nil => rfl
    | cons token rest =>
      simp only [List.map_cons, Token.kind_mapWord, Token.mapWord_eq_stop_iff]
      split
      · simp [Outcome.mapWords, finish_mapWords]
      split
      · split <;> rfl
      · rw [reduceAll_mapWords hf]
        rcases reduceAll stack with ⟨moves, failure | stack'⟩ <;> rfl

/-- A run on other words makes the same moves, and its result is the same up to the words. -/
theorem runFrom_mapWords (limit round fuel : Nat) (s : State) :
    runFrom limit round fuel (s.mapWords f) =
      ⟨(runFrom limit round fuel s).moves,
        (runFrom limit round fuel s).result.map (Expr.mapWords f)⟩ := by
  induction fuel generalizing round s with
  | zero => rfl
  | succ fuel ih =>
    simp only [runFrom, step_mapWords hf]
    rcases step round s with ⟨moves, t | result⟩
    · simp [Outcome.mapWords, ih]
    · rfl

theorem run_mapWords (tokens : List Token) (limit : Nat) :
    run (tokens.map (Token.mapWord f)) limit =
      ⟨(run tokens limit).moves, (run tokens limit).result.map (Expr.mapWords f)⟩ :=
  runFrom_mapWords hf limit 0 limit (.initial tokens)

end Automaton

end SearchWords
