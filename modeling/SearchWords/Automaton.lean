import SearchWords.Expr
import SearchWords.Failure
import SearchWords.Token

/-! # The precedence automaton

Tokens are moved onto a stack, and handles at its right end are replaced by the expressions they
stand for. The ranks of the rightmost token on the stack and of the next token of the line decide
which of the two happens in a round. -/

namespace SearchWords.Automaton

/-- The greatest height of an expression that is built. -/
def maxHeight : Nat := 256

/-- An entry of the stack: a token with its index in the line (the marker at the bottom has none),
or an expression with its height. -/
inductive Entry where
  | terminal (token : Token) (index : Option Nat)
  | node (expr : Expr) (height : Nat)
deriving DecidableEq, Repr

def Entry.terminal? : Entry → Option (Token.Kind × Option Nat)
  | .terminal token index => some (token.kind, index)
  | .node _ _ => none

def Entry.height? : Entry → Option Nat
  | .terminal _ _ => none
  | .node _ height => some height

/-- A stack, its rightmost entry first. -/
abbrev Stack := List Entry

/-- The rightmost token of a stack. -/
def topTerminal? (stack : Stack) : Option (Token.Kind × Option Nat) :=
  stack.findSome? Entry.terminal?

/-- The number of tokens on a stack. -/
def terminals (stack : Stack) : Nat :=
  stack.countP fun entry => entry.terminal?.isSome

@[simp] theorem terminals_nil : terminals [] = 0 := rfl

@[simp] theorem terminals_terminal (token : Token) (index : Option Nat) (stack : Stack) :
    terminals (.terminal token index :: stack) = terminals stack + 1 := by
  simp [terminals, Entry.terminal?]

@[simp] theorem terminals_node (expr : Expr) (height : Nat) (stack : Stack) :
    terminals (.node expr height :: stack) = terminals stack := by
  simp [terminals, Entry.terminal?]

/-- What the automaton does to its stack, as it is logged. -/
inductive Move where
  | shift (round : Nat) (kind : Token.Kind)
  | reduce (op : Expr.Op) (height : Nat)
deriving DecidableEq, Repr

/-! ## Productions -/

/-- A place in the form of a handle: an expression, or a token of a kind. -/
inductive Slot where
  | reduced
  | terminal (kind : Token.Kind)
deriving DecidableEq, Repr

def Slot.accepts : Slot → Entry → Bool
  | .reduced, .node _ _ => true
  | .terminal kind, .terminal token _ => token.kind = kind
  | _, _ => false

/-- What a handle looks like from left to right, and the operation of the expression it stands
for. -/
structure Production where
  form : List Slot
  op : Expr.Op
deriving DecidableEq, Repr

namespace Production

def word : Production := ⟨[.terminal .word], .word⟩

def and : Production := ⟨[.reduced, .terminal .and, .reduced], .and⟩

def or : Production := ⟨[.reduced, .terminal .or, .reduced], .or⟩

def paren : Production := ⟨[.terminal .lparen, .reduced, .terminal .rparen], .paren⟩

def exclude : Production := ⟨[.terminal .exclude, .reduced], .exclude⟩

/-- As many entries from the right end of a stack as the form has places, from left to right. -/
def handle (p : Production) (stack : Stack) : List Entry :=
  (stack.take p.form.length).reverse

/-- Whether a stack ends in a handle of this form. -/
def fits (p : Production) (stack : Stack) : Bool :=
  p.form.length ≤ stack.length &&
    ((p.handle stack).zip p.form).all fun (entry, slot) => slot.accepts entry

end Production

/-- The productions. The first one that fits a stack is taken. -/
def productions : List Production :=
  [.word, .and, .or, .paren, .exclude]

/-! ## Reducing -/

/-- A handle read as an expression: the operation of its production, the first token of the handle,
and the stack below it. -/
structure Reduction where
  op : Expr.Op
  expr : Expr
  height : Nat
  leftmost : Token.Kind
  below : Stack

namespace Reduction

/-- The stack with the expression in place of its handle. -/
def stack (r : Reduction) : Stack :=
  .node r.expr r.height :: r.below

def move (r : Reduction) : Move :=
  .reduce r.op r.height

end Reduction

/-- A word as an expression. A word with no character but wildcards would match everything. -/
def leaf (w : Word) (index : Option Nat) : Except Failure Expr :=
  if w.text = "" then .error (.malformed .emptyPhrase index)
  else if Word.onlyWildcards w.text then .error (.malformed .onlyWildcards index)
  else .ok (.word w)

/-- The expression of a handle. -/
def build : Expr.Op → List Entry → Except Failure Expr
  | .word, .terminal (.word w) index :: _ => leaf w index
  | .and, .node l _ :: _ :: .node r _ :: _ => .ok (.and l r)
  | .or, .node l _ :: _ :: .node r _ :: _ => .ok (.or l r)
  | .paren, _ :: .node e _ :: _ :: _ => .ok (.paren e)
  | .exclude, _ :: .node e _ :: _ => .ok (.exclude e)
  | op, _ => .error (.internal ("handle does not fit the " ++ op.name ++ " production"))

/-- The height of an expression that is made of the given entries. -/
def heightOver (handle : List Entry) : Nat :=
  (handle.filterMap Entry.height?).max?.elim 1 (· + 1)

/-- Read the handle at the right end of a stack as an expression, unless that is too high. -/
def Production.read (p : Production) (stack : Stack) : Except Failure Reduction :=
  match (p.handle stack).findSome? Entry.terminal? with
  | none => .error (.internal "production without a terminal")
  | some (leftmost, _) =>
    if maxHeight < heightOver (p.handle stack) then .error (.tooDeep maxHeight)
    else
      match build p.op (p.handle stack) with
      | .error failure => .error failure
      | .ok expr =>
        .ok ⟨p.op, expr, heightOver (p.handle stack), leftmost, stack.drop p.form.length⟩

/-- What is wrong with a stack that has no handle at its right end. -/
def fault (stack : Stack) : Token.Kind → Fault
  | .rparen =>
    match stack with
    | _ :: .terminal .lparen _ :: _ => .emptyGroup
    | _ => .unmatchedParen
  | .or => .lonelyOr
  | .exclude => .lonelyExclude
  | _ => .unclassified

def blame (stack : Stack) : Failure :=
  match topTerminal? stack with
  | some (kind, index) => .malformed (fault stack kind) index
  | none => .malformed .unclassified none

/-- Replace the handle at the right end of the stack. -/
def reduce (stack : Stack) : Except Failure Reduction :=
  match productions.find? (·.fits stack) with
  | none => .error (blame stack)
  | some p => p.read stack

/-- A handle is read if it has a token, is not too high, and can be built. -/
theorem Production.read_eq_ok_iff {p : Production} {stack : Stack} {r : Reduction} :
    p.read stack = .ok r ↔
      ∃ leftmost index expr, (p.handle stack).findSome? Entry.terminal? = some (leftmost, index) ∧
        heightOver (p.handle stack) ≤ maxHeight ∧ build p.op (p.handle stack) = .ok expr ∧
        r = ⟨p.op, expr, heightOver (p.handle stack), leftmost, stack.drop p.form.length⟩ := by
  constructor
  · intro h
    unfold read at h
    split at h
    · cases h
    · next leftmost index hfound =>
      split at h
      · cases h
      · next hle =>
        split at h
        · cases h
        · next expr hbuild =>
          exact ⟨leftmost, index, expr, hfound, Nat.le_of_not_lt hle, hbuild,
            (Except.ok.inj h).symm⟩
  · rintro ⟨leftmost, index, expr, hfound, hle, hbuild, rfl⟩
    simp only [read, hfound, Nat.not_lt.2 hle, if_false, hbuild]

/-- A handle that is read has a token. -/
theorem Production.terminals_lt_of_read {p : Production} {stack : Stack} {r : Reduction}
    (h : p.read stack = .ok r) : terminals r.below < terminals stack := by
  obtain ⟨leftmost, index, expr, hfound, -, -, rfl⟩ := read_eq_ok_iff.1 h
  obtain ⟨entry, hmem, hentry⟩ := List.exists_of_findSome?_eq_some hfound
  have hpos : 0 < terminals (stack.take p.form.length) := by
    refine List.countP_pos_iff.2 ⟨entry, List.mem_reverse.1 hmem, ?_⟩
    rw [hentry]
    rfl
  have hsplit : terminals stack =
      terminals (stack.take p.form.length) + terminals (stack.drop p.form.length) := by
    rw [terminals, terminals, terminals, ← List.countP_append, List.take_append_drop]
  simp only
  omega

/-- A reduction takes at least one token off the stack. -/
theorem terminals_lt_of_reduce {stack : Stack} {r : Reduction} (h : reduce stack = .ok r) :
    terminals r.stack < terminals stack := by
  unfold reduce at h
  split at h
  · cases h
  · rw [Reduction.stack, terminals_node]
    exact Production.terminals_lt_of_read h

/-- Reduce until the rightmost token binds less tightly than what was reduced last. -/
def reduceAll (stack : Stack) : List Move × Except Failure Stack :=
  match _ : reduce stack with
  | .error failure => ([], .error failure)
  | .ok r =>
    match topTerminal? r.stack with
    | none => ([r.move], .error (.internal "parser stack lost its end marker"))
    | some (top, _) =>
      if top.leftRank < r.leftmost.rightRank then ([r.move], .ok r.stack)
      else
        let (moves, result) := reduceAll r.stack
        (r.move :: moves, result)
termination_by terminals stack
decreasing_by exact terminals_lt_of_reduce ‹_›

/-! ## Rounds -/

/-- A stack, the tokens that are left, and the index of the first of them. -/
structure State where
  stack : Stack
  rest : List Token
  index : Nat

/-- The state before the first round: nothing but the marker on the stack. -/
def State.initial (tokens : List Token) : State where
  stack := [.terminal .stop none]
  rest := tokens
  index := 0

/-- What a round leads to. -/
inductive Outcome where
  | next (state : State)
  | done (result : Except Failure Expr)

/-- The result when both the stack and the line have come to their markers. -/
def finish : Stack → Except Failure Expr
  | [_] => .error (.malformed .noWords none)
  | [.node e _, _] => .ok e
  | [_, _] => .error (.internal "end marker above the stack bottom")
  | _ => .error (.malformed .severalExpressions none)

/-- One round: move a token onto the stack, or reduce, or come to an end. -/
def step (round : Nat) (s : State) : List Move × Outcome :=
  match topTerminal? s.stack with
  | none => ([], .done (.error (.internal "parser stack lost its end marker")))
  | some (top, index) =>
    match s.rest with
    | [] => ([], .done (.error (.malformed .unexpectedEnd none)))
    | token :: rest =>
      if top = .stop ∧ token = .stop then ([], .done (finish s.stack))
      else if top.leftRank ≤ token.kind.rightRank then
        if token = .stop then ([], .done (.error (.malformed .unclosedParen index)))
        else ([.shift round token.kind],
          .next ⟨.terminal token (some s.index) :: s.stack, rest, s.index + 1⟩)
      else
        match reduceAll s.stack with
        | (moves, .error failure) => (moves, .done (.error failure))
        | (moves, .ok stack) => (moves, .next ⟨stack, token :: rest, s.index⟩)

/-- Everything a run of the automaton shows. -/
structure Run where
  moves : List Move
  result : Except Failure Expr

/-- The rounds from number `round` on, of which `fuel` are left within the limit. -/
def runFrom (limit round : Nat) : (fuel : Nat) → State → Run
  | 0, _ => ⟨[], .error (.complexity limit)⟩
  | fuel + 1, s =>
    match step round s with
    | (moves, .done result) => ⟨moves, result⟩
    | (moves, .next s') =>
      let later := runFrom limit (round + 1) fuel s'
      ⟨moves ++ later.moves, later.result⟩

/-- Run the automaton on a line of tokens for at most `limit` rounds. -/
def run (tokens : List Token) (limit : Nat) : Run :=
  runFrom limit 0 limit (.initial tokens)

end SearchWords.Automaton
