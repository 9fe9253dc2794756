import Audec.PatternLang.Parse

/-! What reading a term takes from the text: a parser that returns a term has passed at least the parentheses and
    commas of its print, and exactly its letters if it passed no more of these. -/

open List

namespace Audec.PatternLang

open Machine FloatDebug FloatDecimal Traced

def isMark (c : Char) : Bool := c == '(' || c == ','

def marks (text : Text) : Nat := text.countP isMark

def letters (text : Text) : Nat := text.countP Char.isLower

@[simp] theorem marks_append (a b : Text) : marks (a ++ b) = marks a + marks b := countP_append

@[simp] theorem letters_append (a b : Text) : letters (a ++ b) = letters a + letters b := countP_append

/-- The marks and the letters that the print of a term has besides those of its floats. -/
@[ext] structure Tally where
  marks : Nat
  letters : Nat

namespace Tally

instance zero : Zero Tally := ⟨0, 0⟩

instance add : Add Tally := ⟨fun a b => ⟨a.marks + b.marks, a.letters + b.letters⟩⟩

@[simp] theorem zero_marks : (0 : Tally).marks = 0 := rfl
@[simp] theorem zero_letters : (0 : Tally).letters = 0 := rfl
@[simp] theorem add_marks (a b : Tally) : (a + b).marks = a.marks + b.marks := rfl
@[simp] theorem add_letters (a b : Tally) : (a + b).letters = a.letters + b.letters := rfl

instance addCommMonoid : AddCommMonoid Tally where
  add_assoc a b c := Tally.ext (Nat.add_assoc _ _ _) (Nat.add_assoc _ _ _)
  zero_add a := Tally.ext (Nat.zero_add _) (Nat.zero_add _)
  add_zero a := Tally.ext (Nat.add_zero _) (Nat.add_zero _)
  add_comm a b := Tally.ext (Nat.add_comm _ _) (Nat.add_comm _ _)
  nsmul := nsmulRec

theorem call_tally (letters : Nat) (inner : Tally) : ⟨2, letters⟩ + inner = ⟨1, letters⟩ + (⟨1, 0⟩ + inner) := by
  rw [← add_assoc]
  rfl

def of (text : Text) : Tally := ⟨PatternLang.marks text, PatternLang.letters text⟩

@[simp] theorem of_marks (text : Text) : (of text).marks = PatternLang.marks text := rfl
@[simp] theorem of_letters (text : Text) : (of text).letters = PatternLang.letters text := rfl

end Tally

mutual

def Element.tally : Element → Tally
  | .rest => 0
  | .name binding _ => .of binding
  | .group steps => stepsTally steps
  | .alternate steps => stepsTally steps

def stepsTally : List (StepOf Element) → Tally
  | [] => 0
  | step :: more => stepTally step + stepsTally more

def stepTally : StepOf Element → Tally
  | ⟨element, _, _, _, _, _⟩ => element.tally

end

def PatternTransform.tally : PatternTransform → Tally
  | .rotate _ => ⟨1, 3⟩
  | .gain _ => ⟨1, 4⟩
  | .degrade _ => ⟨1, 7⟩

mutual

def PatternExpr.tally : PatternExpr → Tally
  | .seq steps => stepsTally steps
  | .stack [] => ⟨1, 5⟩
  | .stack (first :: more) => ⟨1, 5⟩ + (first.tally + membersTally more)
  | .every _ offset transform inner => ⟨if offset = 0 then 3 else 4, 5⟩ + (transform.tally + inner.tally)
  | .rotate _ inner => ⟨2, 3⟩ + inner.tally
  | .euclid _ _ rotation element => ⟨if rotation = I32.zero then 3 else 4, 1⟩ + element.tally
  | .fast _ inner => ⟨2, 4⟩ + inner.tally
  | .slow _ inner => ⟨2, 4⟩ + inner.tally
  | .swing _ inner => ⟨2, 5⟩ + inner.tally
  | .gain _ inner => ⟨2, 4⟩ + inner.tally
  | .degrade _ inner => ⟨2, 7⟩ + inner.tally

/-- The members of a stack after the first, each behind a comma. -/
def membersTally : List PatternExpr → Tally
  | [] => 0
  | member :: more => ⟨1, 0⟩ + (member.tally + membersTally more)

end

/-- From one text to what is left of it, at least the marks of the tally are passed, and if no others then exactly
    its letters. -/
structure Passes (text : Text) (tally : Tally) (rest : Text) : Prop where
  least : marks rest + tally.marks ≤ marks text
  exact : marks text = marks rest + tally.marks → letters text = letters rest + tally.letters

namespace Passes

variable {text middle rest : Text} {a b : Tally}

theorem nothing (text : Text) : Passes text 0 text := ⟨Nat.le_refl _, fun _ => rfl⟩

theorem and_then (first : Passes text a middle) (second : Passes middle b rest) : Passes text (a + b) rest := by
  have := first.least
  have := second.least
  constructor
  · rw [Tally.add_marks]
    omega
  · intro same
    rw [Tally.add_marks] at same
    have := first.exact (by omega)
    have := second.exact (by omega)
    rw [Tally.add_letters]
    omega

theorem run (run rest : Text) : Passes (run ++ rest) (.of run) rest := by
  constructor
  · rw [marks_append, Tally.of_marks]
    omega
  · intro _
    rw [letters_append, Tally.of_letters]
    omega

theorem tail {c : Char} (starts : text.head? = some c) : Passes text (.of [c]) text.tail := by
  cases text with
  | nil => cases starts
  | cons d more =>
    cases starts
    exact run [c] more

theorem of_fewer (first : Passes text a rest) (fewer : b.marks < a.marks) : Passes text b rest := by
  have := first.least
  constructor
  · omega
  · intro same
    omega

theorem of_same (first : Passes text a rest) (sameMarks : b.marks = a.marks) (sameLetters : b.letters = a.letters) :
    Passes text b rest := by
  constructor
  · rw [sameMarks]
    exact first.least
  · rw [sameMarks, sameLetters]
    exact first.exact

theorem unmarked {run : Text} (plain : ∀ c ∈ run, isMark c = false ∧ c.isLower = false) (rest : Text) :
    Passes (run ++ rest) 0 rest := by
  have noMark : marks run = 0 := countP_eq_zero.mpr fun c inside => by simp [(plain c inside).1]
  have noLetter : letters run = 0 := countP_eq_zero.mpr fun c inside => by simp [(plain c inside).2]
  constructor
  · rw [marks_append, noMark, Tally.zero_marks]
    omega
  · intro _
    rw [letters_append, noLetter, Tally.zero_letters]
    omega

theorem takeWhile {test : Char → Bool} (plain : ∀ c, test c = true → isMark c = false ∧ c.isLower = false) (text : Text) :
    Passes text 0 (text.dropWhile test) := by
  have whole := takeWhile_append_dropWhile (p := test) (l := text)
  have inside : ∀ c ∈ text.takeWhile test, isMark c = false ∧ c.isLower = false :=
    fun c inside => plain c (mem_takeWhile_imp inside)
  have passed := unmarked inside (text.dropWhile test)
  rwa [whole] at passed

end Passes

namespace Parser

theorem space_plain (c : Char) (space : isSpace c = true) : isMark c = false ∧ c.isLower = false := by
  simp only [isSpace, Bool.or_eq_true, beq_iff_eq] at space
  rcases space with ((rfl | rfl) | rfl) | rfl <;> exact ⟨rfl, rfl⟩

theorem digit_plain (c : Char) (digit : c.isDigit = true) : isMark c = false ∧ c.isLower = false := by
  constructor
  · by_contra mark
    simp only [isMark, Bool.not_eq_false, Bool.or_eq_true, beq_iff_eq] at mark
    rcases mark with rfl | rfl <;> cases digit
  · unfold Char.isDigit at digit
    unfold Char.isLower
    simp only [Bool.and_eq_true, decide_eq_true_eq, Bool.and_eq_false_iff, decide_eq_false_iff_not, ge_iff_le,
      UInt32.le_iff_toNat_le] at *
    have : 'a'.val.toNat = 97 := rfl
    have : '9'.val.toNat = 57 := rfl
    omega

theorem identText_spends {text word more : Text} (found : identText text = some (word, more)) :
    Passes text (.of word) more := by
  cases text with
  | nil => cases found
  | cons c rest =>
    by_cases starts : isIdentStart c = true
    · rw [identText, if_pos starts] at found
      cases found
      have whole := Passes.run (c :: rest.takeWhile isIdentRest) (rest.dropWhile isIdentRest)
      rwa [cons_append, takeWhile_append_dropWhile] at whole
    · rw [identText, if_neg starts] at found
      cases found

/-- The tally of the arguments of `e` after the second. -/
def argumentsTally (rotation : I32) (found : Option Element) : Tally :=
  ⟨if rotation = I32.zero then 0 else 1, 0⟩ + found.elim 0 fun element => ⟨1, 0⟩ + element.tally

end Parser

end Audec.PatternLang
