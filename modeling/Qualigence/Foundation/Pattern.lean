import Mathlib.Data.Nat.Notation

/-! # Patterns

Regular expressions without captures, as a test asks them: whether some part of a text
matches. A pattern is matched from a position on, which knows the character before it, and
gives every position at which a match can end.
-/

namespace Qualigence.Foundation

inductive Pattern where
  | empty
  | char (accepts : Char → Bool)
  | seq (first second : Pattern)
  | alt (left right : Pattern)
  | many (item : Pattern)
  | start
  | stop
  | boundary

/-- A place in a text. -/
structure Position where
  before : Option Char
  rest : List Char

/-- The characters of a word. -/
def isWordChar (c : Char) : Bool := c.isAlphanum || c == '_'

namespace Pattern

/-- Follow a match any number of times, at most as often as the fuel says. -/
def follow (next : Position → List Position) : ℕ → Position → List Position
  | 0, position => [position]
  | fuel + 1, position => position :: (next position).flatMap (follow next fuel)

/-- The positions at which a match can end. A repetition never needs more rounds than there
are characters left. -/
def ends : Pattern → Position → List Position
  | empty, position => [position]
  | char accepts, position => match position.rest with
    | c :: rest => if accepts c then [⟨some c, rest⟩] else []
    | [] => []
  | seq first second, position => (first.ends position).flatMap second.ends
  | alt left right, position => left.ends position ++ right.ends position
  | many item, position => follow item.ends position.rest.length position
  | start, position => if position.before.isNone then [position] else []
  | stop, position => if position.rest.isEmpty then [position] else []
  | boundary, position =>
    if position.before.any isWordChar != position.rest.head?.any isWordChar then [position]
    else []

/-- Every position of a text. -/
def positions (before : Option Char) : List Char → List Position
  | [] => [⟨before, []⟩]
  | c :: rest => ⟨before, c :: rest⟩ :: positions (some c) rest

/-- Some part of the text matches. -/
def test (p : Pattern) (text : String) : Bool :=
  (positions none text.toList).any fun position => !(p.ends position).isEmpty

/-- A text, character by character. -/
def literal (text : String) : Pattern :=
  text.toList.foldr (fun c rest => seq (char (· == c)) rest) empty

/-- A text in either case of its ASCII letters. -/
def literalIgnoreCase (text : String) : Pattern :=
  text.toList.foldr (fun c rest => seq (char fun d => d.toLower == c.toLower) rest) empty

def optional (p : Pattern) : Pattern := alt p empty

def some1 (p : Pattern) : Pattern := seq p (many p)

/-- Patterns one after another. -/
def all (ps : List Pattern) : Pattern := ps.foldr seq empty

/-- One of several patterns. -/
def oneOf (ps : List Pattern) : Pattern := ps.foldr alt (char fun _ => false)

theorem before_of_mem_positions {before : Option Char} {cs : List Char} {position : Position}
    (h : position ∈ positions before cs) (hn : position.before = none) :
    position = ⟨before, cs⟩ := by
  induction cs generalizing before with
  | nil =>
    rw [positions, List.mem_singleton] at h
    exact h
  | cons c cs ih =>
    rcases List.mem_cons.mp h with h | h
    · exact h
    · have he := ih h
      rw [he] at hn
      cases hn

/-- A match from the start of a text begins with a character that its pattern accepts. -/
theorem head_of_test {accepts : Char → Bool} {rest : Pattern} {text : String}
    (h : (seq start (seq (char accepts) rest)).test text = true) :
    ∃ c cs, text.toList = c :: cs ∧ accepts c = true := by
  obtain ⟨position, hp, he⟩ := List.any_eq_true.mp h
  obtain ⟨before, chars⟩ := position
  cases before with
  | some b => simp [ends] at he
  | none =>
    cases before_of_mem_positions hp rfl
    cases hc : text.toList with
    | nil => simp [ends, hc] at he
    | cons c cs =>
      refine ⟨c, cs, rfl, ?_⟩
      cases ha : accepts c with
      | true => rfl
      | false => simp [ends, hc, ha] at he

end Pattern

end Qualigence.Foundation
