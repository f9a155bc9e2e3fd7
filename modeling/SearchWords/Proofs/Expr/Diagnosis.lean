import SearchWords.Proofs.Automaton.Faults
import SearchWords.Proofs.Token.Places

/-!
# What an error says about a line

An error on a malformed line gives a message and a place. `Diagnoses` states what each message
means, at which byte of the line, without any notion of the automaton; `diagnoses_of_parse` says
that the parse of a line gives no error that is not true of it. There are eight messages, and each
is given for some line (`exists_parse_of_mem_messages`).
-/

namespace SearchWords

open Token Text

/-- `Diagnoses line message offset`: what the message says is true of the line, at that byte. -/
inductive Diagnoses (line : String) : (message : String) → (offset : Option Nat) → Prop where
  | noWords : isBlank line = true → Diagnoses line "no search words" none
  | emptyPhrase {before after : List Token} {offset : Nat} :
      StandsAt line before (.word (.quoted "")) offset after →
        (∃ left right, line.toList = left ++ '"' :: '"' :: right ∧ byteSize left = offset) →
        Diagnoses line "empty phrase" (some offset)
  | faulty {message : String} {before after : List Token} {token : Token} {offset : Nat} :
      StandsAt line before token offset after → Faulty message before token after →
        Diagnoses line message (some offset)

/-- The messages on malformed lines. -/
def messages : List String :=
  ["no search words", "missing closing parenthesis", "unmatched closing parenthesis",
    "empty parenthesis group", "OR is missing a search word on one side",
    "'-' is missing a search word to exclude", "empty phrase",
    "search word consists only of wildcards"]

/-! ## Faults of tokens, told against the line -/

theorem Faulty.message_mem {message : String} {before after : List Token} {token : Token}
    (h : Faulty message before token after) : message ∈ messages.tail := by
  cases h <;> decide

/-- The tokens that are blamed are written in the line. -/
theorem Faulty.ne_and_stop {message : String} {before after : List Token} {token : Token}
    (h : Faulty message before token after) : token ≠ .and ∧ token ≠ .stop := by
  cases h <;> simp

theorem Diagnoses.message_mem {line message : String} {offset : Option Nat}
    (h : Diagnoses line message offset) : message ∈ messages := by
  cases h with
  | noWords _ => decide
  | emptyPhrase _ _ => decide
  | faulty _ hf => exact List.mem_of_mem_tail hf.message_mem

theorem Diagnoses.isBlank {line : String} {offset : Option Nat}
    (h : Diagnoses line "no search words" offset) : isBlank line = true := by
  generalize hm : "no search words" = message at h
  cases h with
  | noWords hblank => exact hblank
  | emptyPhrase _ _ => exact absurd hm (by decide)
  | faulty _ hf =>
    subst hm
    exact absurd hf.message_mem (by decide)

/-- A fault of the tokens of a line is a fault of the line, at the offset of the token that is
blamed. -/
theorem Automaton.Explained.diagnoses {line : String} {f : Fault} {index : Option Nat}
    (h : Explained (scan line) f index) :
    Diagnoses line f.message (index.bind fun i ↦ (placed line)[i]?.map Placed.offset) := by
  cases h with
  | noWords hscan => exact .noWords ((scan_eq_singleton_iff line).1 hscan)
  | emptyPhrase hscan hindex hw =>
    obtain ⟨offset, hplaced, hstands⟩ := exists_standsAt hscan (by simp) (by simp)
    obtain ⟨rfl, hquotes⟩ := hstands.readAt.eq_of_text hw
    rw [hindex, Option.bind_some, hplaced]
    exact .emptyPhrase hstands hquotes
  | faulty hscan hindex hf =>
    obtain ⟨hand, hstop⟩ := hf.ne_and_stop
    obtain ⟨offset, hplaced, hstands⟩ := exists_standsAt hscan hand hstop
    rw [hindex, Option.bind_some, hplaced]
    exact .faulty hstands hf

/-! ## Errors of a parse -/

namespace Expr

theorem parse_eq_error_iff {line : String} {limit : Nat} {error : QueryError} :
    parse line limit = .error error ↔
      ∃ failure, ofTokens (scan line) limit = .error failure ∧ error = locate line failure := by
  unfold parse
  cases ofTokens (scan line) limit with
  | error failure => simp [Except.mapError, eq_comm]
  | ok e => simp [Except.mapError]

/-- A fault that is found in the tokens of a line is a fault of theirs. -/
theorem explained_of_ofTokens {line : String} {limit : Nat} {f : Fault} {index : Option Nat}
    (h : ofTokens (scan line) limit = .error (.malformed f index)) :
    Automaton.Explained (scan line) f index := by
  have hadj := isChain_scan line
  rw [scan_eq] at h hadj ⊢
  exact Automaton.explained_of_run (stop_notMem_conjoin _) hadj h

theorem diagnoses_of_parse {line : String} {limit : Nat} {error : QueryError}
    (h : parse line limit = .error error) (hm : error.failure.isMalformed = true) :
    Diagnoses line error.message error.failure.place? := by
  obtain ⟨failure, hfailure, rfl⟩ := parse_eq_error_iff.1 h
  cases failure with
  | malformed f index => exact (explained_of_ofTokens hfailure).diagnoses
  | complexity _ | tooDeep _ | internal _ => cases hm

theorem parse_of_isBlank {line : String} (h : isBlank line = true) {limit : Nat}
    (hlimit : 1 ≤ limit) :
    parse line limit = .error ⟨.malformed .noWords none, some line⟩ := by
  obtain ⟨n, rfl⟩ := Nat.exists_eq_add_of_le' hlimit
  rw [parse, (scan_eq_singleton_iff line).2 h]
  rfl

/-- Each message is given for some line. -/
theorem exists_parse_of_mem_messages {message : String} (h : message ∈ messages) :
    ∃ line limit error, parse line limit = .error error ∧ error.failure.isMalformed = true ∧
      error.message = message := by
  have hgiven : ∀ message ∈ messages,
      ∃ line ∈ ["", "(a", ")", "()", "OR", "-", "\"\"", "*"],
        (match parse line 4 with
          | .error error => error.failure.isMalformed && error.message = message
          | .ok _ => false) = true := by
    decide +kernel
  obtain ⟨line, -, hline⟩ := hgiven message h
  cases hparse : parse line 4 with
  | error error =>
    simp only [hparse, Bool.and_eq_true, decide_eq_true_eq] at hline
    exact ⟨line, 4, error, hparse, hline⟩
  | ok e =>
    rw [hparse] at hline
    cases hline

/-- An error on a malformed line is true of the line and points at what it speaks of. If any round
is allowed, a line is said to have no words if and only if it is blank. The messages are the eight
that are listed, each of which is given for some line. -/
theorem parse_error_diagnoses :
    (∀ line limit error, parse line limit = .error error → error.failure.isMalformed = true →
        Diagnoses line error.message error.failure.place?) ∧
      (∀ line limit, 1 ≤ limit →
        ((∃ error, parse line limit = .error error ∧ error.failure.isMalformed = true ∧
            error.message = "no search words") ↔ isBlank line = true)) ∧
      ∀ message,
        (∃ line limit error, parse line limit = .error error ∧
          error.failure.isMalformed = true ∧ error.message = message) ↔ message ∈ messages := by
  refine ⟨fun line limit error ↦ diagnoses_of_parse, ?_, ?_⟩
  · intro line limit hlimit
    constructor
    · rintro ⟨error, hparse, hm, hmessage⟩
      have hdiagnoses := diagnoses_of_parse hparse hm
      rw [hmessage] at hdiagnoses
      exact hdiagnoses.isBlank
    · intro hblank
      exact ⟨_, parse_of_isBlank hblank hlimit, rfl, rfl⟩
  · intro message
    constructor
    · rintro ⟨line, limit, error, hparse, hm, rfl⟩
      exact (diagnoses_of_parse hparse hm).message_mem
    · exact exists_parse_of_mem_messages

/-- The parenthesis is wrong as well, but the disjunction is met first. Its place counts two bytes
for the first word. The other line has white space outside ASCII. -/
theorem parse_error_diagnoses_disjunction :
    let line := "ä OR )"
    parse line 10 = .error ⟨.malformed .lonelyOr (some 3), some line⟩ ∧
      Diagnoses line "OR is missing a search word on one side" (some 3) ∧
      ∃ error, parse "\t\u2003" 1 = .error error ∧ error.failure.isMalformed = true ∧
        error.message = "no search words" := by
  intro line
  have hparse : parse line 10 = .error ⟨.malformed .lonelyOr (some 3), some line⟩ := by
    decide +kernel
  have hblank : isBlank "\t\u2003" = true := by decide +kernel
  exact ⟨hparse, parse_error_diagnoses.1 line 10 _ hparse rfl,
    (parse_error_diagnoses.2.1 _ 1 (Nat.le_refl 1)).2 hblank⟩

end Expr

end SearchWords
