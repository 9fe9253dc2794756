import Audec.PatternLang.RoundTrip

open List Option

namespace Audec.PatternLang

open Machine FloatDebug FloatDecimal Traced Tally PatternExpr

theorem tally_append (a b : Text) : of (a ++ b) = of a + of b := by
  ext
  · simp only [of_marks, marks_append, add_marks]
  · simp only [of_letters, letters_append, add_letters]

theorem tally_cons (c : Char) (text : Text) : of (c :: text) = of [c] + of text :=
  tally_append [c] text

theorem tally_plain {text : Text} (plain : ∀ c ∈ text, isMark c = false ∧ c.isLower = false) : of text = 0 := by
  ext
  · exact countP_eq_zero.mpr fun c inside => by simp [(plain c inside).1]
  · exact countP_eq_zero.mpr fun c inside => by simp [(plain c inside).2]

theorem tally_digits (n : Nat) : of (Nat.toDigits 10 n) = 0 :=
  tally_plain fun c inside => Parser.digit_plain c (toDigits_isDigit n c inside)

theorem tally_natural (n : U32) : of (Print.natural n) = 0 := tally_digits n.val

theorem tally_integer (n : I32) : of (Print.integer n) = 0 := by
  unfold Print.integer
  rw [tally_append, tally_digits]
  split <;> rfl

theorem marks_literal (l : Literal) : marks l.text = 0 := by
  have noDigit : ∀ c : Char, c.isDigit = true → ¬ isMark c = true := by
    intro c digit mark
    rw [(Parser.digit_plain c digit).1] at mark
    cases mark
  apply countP_eq_zero.mpr
  intro c inside
  rw [Literal.text, mem_append] at inside
  rcases inside with whole | fraction
  · exact noDigit c (l.wholeDigits c whole)
  · cases given : l.fraction with
    | none =>
      rw [given] at fraction
      cases fraction
    | some digits =>
      rw [given, Literal.pointText, mem_cons] at fraction
      rcases fraction with rfl | inside
      · decide
      · exact noDigit c (l.fractionDigits c (by rw [given]; exact inside))

variable {lowest : Float32}

variable {x : Float32} {floats : List Float32} {term : PatternExpr}

theorem tally_debug (small : lowest ≤ 0.5) (readable : Readable x) :
    marks (debug lowest x) = 0 ∧ (letters (debug lowest x) = 0 → Plain lowest x) := by
  by_cases plain : Plain lowest x
  · obtain ⟨l, text, -⟩ := debug_plain readable plain
    rw [text]
    exact ⟨marks_literal l, fun _ => plain⟩
  · rcases debug_not_plain small readable plain with ⟨infinite, -⟩ | ⟨l, exponent, isExponent, text, -⟩
    · rw [infinite]
      exact ⟨rfl, fun impossible => nomatch impossible⟩
    · have noMark : marks exponent = 0 := by
        apply countP_eq_zero.mpr
        intro c inside
        rcases isExponent c inside with rfl | digit
        · decide
        · rw [(Parser.digit_plain c digit).1]
          exact Bool.false_ne_true
      rw [text]
      constructor
      · rw [marks_append, marks_literal, Nat.zero_add]
        exact noMark
      · intro noLetter
        rw [letters_append] at noLetter
        have letter : letters ('e' :: exponent) = letters exponent + 1 := countP_cons_of_pos rfl
        omega

def floatsTally (lowest : Float32) : List Float32 → Tally
  | [] => 0
  | x :: more => .of (debug lowest x) + floatsTally lowest more

theorem floatsTally_append (a b : List Float32) :
    floatsTally lowest (a ++ b) = floatsTally lowest a + floatsTally lowest b := by
  induction a with
  | nil => rw [nil_append, floatsTally, zero_add]
  | cons x more ih => rw [cons_append, floatsTally, floatsTally, ih, add_assoc]

section

variable (step : Step)
include step

theorem tally_repeats : of step.printRepeats = 0 := by
  unfold Step.printRepeats
  split
  · rw [tally_cons, tally_natural]
    rfl
  · rfl

theorem tally_replicate : of step.printReplicate = 0 := by
  unfold Step.printReplicate
  split
  · rw [tally_cons, tally_natural]
    rfl
  · rfl

theorem tally_width : of step.printWidth = 0 := by
  unfold Step.printWidth
  split
  · rfl
  split
  · rw [tally_cons, tally_natural]
    rfl
  · rw [tally_cons, tally_append, tally_cons '/', tally_natural, tally_natural]
    rfl

theorem tally_probability :
    of (step.printProbability lowest) = floatsTally lowest step.probability.toList := by
  unfold Step.printProbability
  cases step.probability with
  | none => rfl
  | some x =>
    have mark : of ['?'] = 0 := rfl
    rw [toList_some, floatsTally, floatsTally, tally_cons, mark, zero_add, add_zero]

theorem tally_velocity :
    of (step.printVelocity lowest) = floatsTally lowest step.velocity.toList := by
  unfold Step.printVelocity
  cases step.velocity with
  | none => rfl
  | some x =>
    have mark : of ['^'] = 0 := rfl
    rw [toList_some, floatsTally, floatsTally, tally_cons, mark, zero_add, add_zero]

theorem tally_modifiers : of (step.printModifiers lowest) =
    floatsTally lowest (step.probability.toList ++ step.velocity.toList) := by
  unfold Step.printModifiers
  rw [tally_append, tally_append, tally_append, tally_append, tally_repeats, tally_replicate, tally_width,
    tally_probability, tally_velocity, floatsTally_append, zero_add, zero_add, zero_add]

end

theorem tally_index (index : Nat) : of (if 0 < index then [' '] else []) = 0 := by
  split <;> rfl

mutual

theorem tally_element : ∀ element : Element,
    of (printElement lowest element) = element.tally + floatsTally lowest element.floats
  | .rest => rfl
  | .name binding none => by
    rw [printElement, Element.tally, Element.floats, floatsTally, add_zero]
  | .name binding (some variant) => by
    have mark : of [':'] = 0 := rfl
    rw [printElement, tally_append, tally_cons, tally_natural, mark, Element.tally, Element.floats, floatsTally, add_zero,
      add_zero]
  | .group steps => by
    have opening : of ['['] = 0 := rfl
    have closing : of [']'] = 0 := rfl
    rw [printElement, tally_cons, tally_append, tally_steps steps 0, opening, closing, Element.tally, Element.floats,
      zero_add, add_zero]
  | .alternate steps => by
    have opening : of ['<'] = 0 := rfl
    have closing : of ['>'] = 0 := rfl
    rw [printElement, tally_cons, tally_append, tally_steps steps 0, opening, closing, Element.tally, Element.floats,
      zero_add, add_zero]

theorem tally_steps : ∀ (steps : List (StepOf Element)) (index : Nat),
    of (printSteps lowest index steps) = stepsTally steps + floatsTally lowest (stepsFloats steps)
  | [], _ => rfl
  | step :: more, index => by
    rw [printSteps, tally_append, tally_append, tally_index, tally_step step, tally_steps more (index + 1), stepsTally,
      stepsFloats, floatsTally_append]
    abel

theorem tally_step : ∀ step : StepOf Element,
    of (printStep lowest step) = stepTally step + floatsTally lowest (stepFloats step)
  | ⟨element, width, replicate, repeats, probability, velocity⟩ => by
    rw [printStep, tally_append, tally_element element, tally_modifiers, stepTally, stepFloats, floatsTally_append element.floats]
    abel

end

theorem tally_transform (transform : PatternTransform) : of (transform.print lowest) =
    transform.tally + floatsTally lowest transform.floats := by
  have closing : of [')'] = 0 := rfl
  cases transform with
  | rotate steps =>
    rw [PatternTransform.print, tally_append, tally_append, tally_integer, closing]
    rfl
  | gain linear =>
    rw [PatternTransform.print, tally_append, tally_append, closing, PatternTransform.floats, floatsTally, floatsTally]
    rfl
  | degrade probability =>
    rw [PatternTransform.print, tally_append, tally_append, closing, PatternTransform.floats, floatsTally, floatsTally]
    rfl

theorem tally_separator : of separator = ⟨1, 0⟩ := rfl

theorem tally_close (text : Text) : of (text ++ [')']) = of text := by
  have closing : of [')'] = 0 := rfl
  rw [tally_append, closing, add_zero]

mutual

theorem tally_expr : ∀ expr : PatternExpr,
    of (printExpr lowest expr) = expr.tally + floatsTally lowest expr.floats
  | .seq steps => by
    rw [printExpr, tally_steps, tally, floats]
  | .stack [] => rfl
  | .stack (first :: more) => by
    have word : of ['s', 't', 'a', 'c', 'k', '('] = ⟨1, 5⟩ := rfl
    rw [printExpr, printMembers, if_neg (Nat.lt_irrefl 0), nil_append, tally_append, tally_close, tally_append,
      tally_expr first, tally_members more 0, word, tally, floats, membersFloats, floatsTally_append]
    abel
  | .every period offset transform inner => by
    have word : of ['e', 'v', 'e', 'r', 'y', '('] = ⟨1, 5⟩ := rfl
    rw [printExpr, tally_append, tally_append, tally_append, tally_close, tally_transform, tally_expr inner, tally_separator,
      tally, floats, floatsTally_append]
    split
    · rw [tally_append, tally_append, tally_natural, tally_separator, word]
      have same : (⟨3, 5⟩ : Tally) = ⟨1, 5⟩ + ⟨1, 0⟩ + ⟨1, 0⟩ := rfl
      rw [same]
      abel
    · rw [tally_append, tally_append, tally_append, tally_append, tally_natural, tally_natural, tally_separator, word]
      have same : (⟨4, 5⟩ : Tally) = ⟨1, 5⟩ + ⟨1, 0⟩ + ⟨1, 0⟩ + ⟨1, 0⟩ := rfl
      rw [same]
      abel
  | .rotate steps inner => by
    have word : of ['r', 'o', 't', '('] = ⟨1, 3⟩ := rfl
    rw [printExpr, tally_append, tally_append, tally_append, tally_close, tally_integer, tally_expr inner, tally_separator, word,
      tally, floats, call_tally]
    abel
  | .euclid hits slots rotation element => by
    have word : of ['e', '('] = ⟨1, 1⟩ := rfl
    rw [printExpr, tally_append, tally_close, tally_element, tally, floats]
    split
    · rw [tally_append, tally_append, tally_append, tally_append, tally_natural, tally_natural, tally_separator, word]
      have same : (⟨3, 1⟩ : Tally) = ⟨1, 1⟩ + ⟨1, 0⟩ + ⟨1, 0⟩ := rfl
      rw [same]
      abel
    · rw [tally_append, tally_append, tally_append, tally_append, tally_append, tally_append, tally_natural, tally_natural,
        tally_integer, tally_separator, word]
      have same : (⟨4, 1⟩ : Tally) = ⟨1, 1⟩ + ⟨1, 0⟩ + ⟨1, 0⟩ + ⟨1, 0⟩ := rfl
      rw [same]
      abel
  | .fast factor inner => by
    have word : of ['f', 'a', 's', 't', '('] = ⟨1, 4⟩ := rfl
    rw [printExpr, tally_append, tally_append, tally_append, tally_close, tally_natural, tally_expr inner, tally_separator, word,
      tally, floats, call_tally]
    abel
  | .slow factor inner => by
    have word : of ['s', 'l', 'o', 'w', '('] = ⟨1, 4⟩ := rfl
    rw [printExpr, tally_append, tally_append, tally_append, tally_close, tally_natural, tally_expr inner, tally_separator, word,
      tally, floats, call_tally]
    abel
  | .swing amount inner => by
    have word : of ['s', 'w', 'i', 'n', 'g', '('] = ⟨1, 5⟩ := rfl
    rw [printExpr, tally_append, tally_append, tally_append, tally_close, tally_expr inner, tally_separator, word,
      tally, floats, floatsTally, call_tally]
    abel
  | .gain linear inner => by
    have word : of ['g', 'a', 'i', 'n', '('] = ⟨1, 4⟩ := rfl
    rw [printExpr, tally_append, tally_append, tally_append, tally_close, tally_expr inner, tally_separator, word,
      tally, floats, floatsTally, call_tally]
    abel
  | .degrade probability inner => by
    have word : of ['d', 'e', 'g', 'r', 'a', 'd', 'e', '('] = ⟨1, 7⟩ := rfl
    rw [printExpr, tally_append, tally_append, tally_append, tally_close, tally_expr inner, tally_separator, word,
      tally, floats, floatsTally, call_tally]
    abel

theorem tally_members : ∀ (members : List PatternExpr) (index : Nat),
    of (printMembers lowest (index + 1) members) = membersTally members + floatsTally lowest (membersFloats members)
  | [], _ => rfl
  | member :: more, index => by
    rw [printMembers, if_pos (Nat.succ_pos index), tally_append, tally_append, tally_separator, tally_expr member,
      tally_members more (index + 1), membersTally, membersFloats, floatsTally_append]
    abel

end

def AllReadable (floats : List Float32) : Prop := ∀ x ∈ floats, Readable x

theorem allReadable_append {a b : List Float32} (first : AllReadable a) (second : AllReadable b) : AllReadable (a ++ b) :=
  forall_mem_append.mpr ⟨first, second⟩

theorem allReadable_cons {more : List Float32} (first : Readable x) (second : AllReadable more) :
    AllReadable (x :: more) :=
  forall_mem_cons.mpr ⟨first, second⟩

theorem allReadable_option {x : Option Float32} (readable : ∀ y ∈ x, Readable y) : AllReadable x.toList :=
  fun y inside => readable y (mem_toList.mp inside)

mutual

theorem element_readable : ∀ element : Element, element.WellFormed → AllReadable element.floats
  | .rest, _ => fun _ inside => nomatch inside
  | .name _ _, _ => fun _ inside => nomatch inside
  | .group steps, ⟨_, steps'⟩ => steps_readable steps steps'
  | .alternate steps, ⟨_, steps'⟩ => steps_readable steps steps'

theorem steps_readable : ∀ steps : List (StepOf Element), StepsWellFormed steps → AllReadable (stepsFloats steps)
  | [], _ => fun _ inside => nomatch inside
  | step :: more, ⟨step', more'⟩ => allReadable_append (step_readable step step') (steps_readable more more')

theorem step_readable : ∀ step : StepOf Element, StepWellFormed step → AllReadable (stepFloats step)
  | ⟨element, _, _, _, _, _⟩, ⟨element', modified⟩ => allReadable_append (element_readable element element')
    (allReadable_append (allReadable_option modified.probability) (allReadable_option modified.velocity))

end

mutual

theorem expr_readable : ∀ expr : PatternExpr, expr.WellFormed → AllReadable expr.floats
  | .seq steps, ⟨_, steps'⟩ => steps_readable steps steps'
  | .stack members, ⟨_, members'⟩ => members_readable members members'
  | .every _ _ _ inner, ⟨transform', inner'⟩ => allReadable_append transform' (expr_readable inner inner')
  | .rotate _ inner, wellFormed => by
    rw [PatternExpr.WellFormed] at wellFormed
    exact expr_readable inner wellFormed
  | .euclid _ _ _ element, wellFormed => by
    rw [PatternExpr.WellFormed] at wellFormed
    exact element_readable element wellFormed
  | .fast _ inner, wellFormed => by
    rw [PatternExpr.WellFormed] at wellFormed
    exact expr_readable inner wellFormed
  | .slow _ inner, wellFormed => by
    rw [PatternExpr.WellFormed] at wellFormed
    exact expr_readable inner wellFormed
  | .swing _ inner, ⟨amount', inner'⟩ => allReadable_cons amount' (expr_readable inner inner')
  | .gain _ inner, ⟨linear', inner'⟩ => allReadable_cons linear' (expr_readable inner inner')
  | .degrade _ inner, ⟨probability', inner'⟩ => allReadable_cons probability' (expr_readable inner inner')

theorem members_readable : ∀ members : List PatternExpr, MembersWellFormed members → AllReadable (membersFloats members)
  | [], _ => fun _ inside => nomatch inside
  | member :: more, ⟨member', more'⟩ => allReadable_append (expr_readable member member') (members_readable more more')

end

section

variable (small : lowest ≤ 0.5)
include small

theorem floatsTally_marks (readable : AllReadable floats) :
    (floatsTally lowest floats).marks = 0 := by
  induction floats with
  | nil => rfl
  | cons x more ih =>
    obtain ⟨first, others⟩ := forall_mem_cons.mp readable
    rw [floatsTally, add_marks, of_marks, (tally_debug small first).1, ih others]

theorem floatsTally_letters (readable : AllReadable floats)
    (none : (floatsTally lowest floats).letters = 0) : Parser.AllPlain lowest floats := by
  induction floats with
  | nil => exact fun _ inside => nomatch inside
  | cons x more ih =>
    obtain ⟨first, others⟩ := forall_mem_cons.mp readable
    rw [floatsTally, add_letters, of_letters] at none
    exact forall_mem_cons.mpr ⟨(tally_debug small first).2 (by omega), ih others (by omega)⟩

theorem reprint_plain (wellFormed : term.WellFormed)
    (parsed : parse (print lowest term) = .ok term) : Parser.AllPlain lowest term.floats := by
  have readable := expr_readable term wellFormed
  have passed := parse_passes parsed
  have printed : of (printExpr lowest term) = term.tally + floatsTally lowest term.floats := tally_expr term
  have sameMarks := congrArg Tally.marks printed
  have sameLetters := congrArg Tally.letters printed
  have noMarks := floatsTally_marks small readable
  simp only [of_marks, of_letters, add_marks, add_letters] at sameMarks sameLetters
  have empty : marks [] = 0 ∧ letters [] = 0 := ⟨rfl, rfl⟩
  have spent := passed.exact (by unfold print; omega)
  unfold print at spent
  exact floatsTally_letters small readable (by omega)

theorem parse_of_plain (wellFormed : term.WellFormed)
    (plain : Parser.AllPlain lowest term.floats) : parse (print lowest term) = .ok term := by
  have starts : Scanner.Stops Parser.isSpace (printExpr lowest term ++ []) := Parser.printExpr_starts wellFormed []
  have reads := fun fuel => Parser.expr_reads small term wellFormed plain [] (Follows.nil afterSteps) fuel
  rw [append_nil] at starts
  simp only [append_nil] at reads
  have whole : ∀ fuel, Scanner.Reads (Parser.source fuel) (print lowest term) term [] := by
    intro fuel
    apply Scanner.Reads.bind (Parser.skipSpace_reads starts)
    apply Scanner.Reads.bind (reads fuel)
    apply Scanner.Reads.bind (Parser.skipSpace_reads (Scanner.Stops.nil _))
    apply Scanner.Reads.peek
    exact Scanner.Reads.pure term []
  have terminates := parse_not_exhausted (print lowest term)
  unfold parse parseRun at terminates ⊢
  rcases whole _ (print lowest term).length with stuck | done
  · rw [stuck] at terminates
    exact absurd rfl terminates
  · rw [done]
    rfl

end

/-- Printing and parsing agree on the terms whose numbers are all printed without an exponent, and on no others. -/
theorem parse_print_iff (small : lowest ≤ 0.5) {source : Text} {term : PatternExpr} (parsed : parse source = .ok term) :
    parse (print lowest term) = .ok term ↔ ∀ x ∈ term.floats, Plain lowest x := by
  have wellFormed := parse_wellFormed parsed
  constructor
  · exact reprint_plain small wellFormed
  · exact parse_of_plain small wellFormed

theorem half_gain_read_back : ∃ term, parse ['g', 'a', 'i', 'n', '(', '0', '.', '5', ',', ' ', 'a', ')'] = .ok term ∧
    parse (print 1e-5 term) = .ok term := by
  have parsed : parse ['g', 'a', 'i', 'n', '(', '0', '.', '5', ',', ' ', 'a', ')'] =
      .ok (.gain 0.5 (.seq [Step.plain (.name ['a'] none)])) := by rfl
  refine ⟨_, parsed, ?_⟩
  refine (parse_print_iff (by decide) parsed).mpr ?_
  exact List.forall_mem_singleton.mpr (Or.inr (by decide))

/-- `gain(10000000000000000, a)`. -/
def largeGain : Text := ['g', 'a', 'i', 'n', '(', '1', '0', '0', '0', '0', '0', '0', '0', '0', '0', '0', '0', '0', '0', '0',
  '0', '0', ',', ' ', 'a', ')']

/-- Its print is `gain(1e16, a)`, which is no pattern. -/
theorem large_gain_not_read_back : ¬ ∀ (source : Text) (term : PatternExpr),
    parse source = .ok term → parse (print 1e-5 term) = .ok term := by
  intro agrees
  have parsed : parse largeGain = .ok (.gain 1e16 (.seq [Step.plain (.name ['a'] none)])) := by rfl
  have again := agrees _ _ parsed
  have unread : (parse (print 1e-5 (.gain 1e16 (.seq [Step.plain (.name ['a'] none)])))).toOption.isNone = true := by
    decide +kernel
  rw [again] at unread
  cases unread

end Audec.PatternLang
