import Audec.PatternLang.Lexical

open List

namespace Audec.PatternLang

open Machine FloatDebug FloatDecimal Traced Scanner.Reads

namespace Follows

theorem noDigit {text : Text} (follows : Follows afterElement text) : Scanner.Stops Char.isDigit text :=
  follows.rejects Char.isDigit rfl

theorem noPoint {text : Text} (follows : Follows afterElement text) : text.head? ≠ some '.' :=
  follows.head_ne (by decide)

end Follows

namespace Parser

open Scanner hiding pure bind

variable {lowest : Float32}

variable {rest text more : Text} {step target : Step} {x : Float32}

theorem some_reads {p : Parser Step} (reads : Reads p text step rest) :
    Reads (some <$> p) text (some step) rest :=
  bind reads (pure (some step) rest)

def Applies (step : Step) (text : Text) (next : Step) (more : Text) : Prop :=
  (next = step ∧ text = more) ∨ Reads (modifier step) text (some next) more

theorem Applies.reads {next final : Step} (applies : Applies step text next more)
    (tail : ∀ fuel, Reads (modifiers fuel next) more final rest) (fuel : Nat) :
    Reads (modifiers fuel step) text final rest := by
  rcases applies with ⟨rfl, rfl⟩ | reads
  · exact tail fuel
  · cases fuel with
    | zero => exact exhausted _ _ _
    | succ fuel => exact bind reads (tail fuel)

theorem one_of_not_one_lt {n : U32} (nonzero : n ≠ 0) (notMany : ¬ 1 < n.val) : n = 1 := by
  apply Fin.ext
  have := Fin.val_ne_of_ne nonzero
  change n.val = 1
  change n.val ≠ 0 at this
  omega

theorem repeats_applies (initial : step.repeats = 1) (valid : target.repeats ≠ 0)
    (follows : Follows afterElement more) :
    Applies step (target.printRepeats ++ more) { step with repeats := target.repeats } more := by
  unfold Step.printRepeats
  split
  · obtain ⟨count, same, reads⟩ := count_reads target.repeats more follows.noDigit
    right
    apply some_reads
    apply Reads.advance
    apply bind reads
    rw [same, if_neg valid]
    exact pure _ more
  · left
    rename_i few
    rw [one_of_not_one_lt valid few, ← initial]
    exact ⟨rfl, rfl⟩

theorem replicate_applies (initial : step.replicate = 1) (valid : target.replicate ≠ 0)
    (follows : Follows afterElement more) :
    Applies step (target.printReplicate ++ more) { step with replicate := target.replicate } more := by
  unfold Step.printReplicate
  split
  · obtain ⟨count, same, reads⟩ := count_reads target.replicate more follows.noDigit
    right
    apply some_reads
    apply Reads.advance
    apply bind reads
    rw [same, if_neg valid]
    exact pure _ more
  · left
    rename_i few
    rw [one_of_not_one_lt valid few, ← initial]
    exact ⟨rfl, rfl⟩

theorem width_applies (initial : step.width = Ratio.one)
    (numerator : target.width.numerator ≠ 0) (denominator : target.width.denominator ≠ 0)
    (follows : Follows afterElement more) :
    Applies step (target.printWidth ++ more) { step with width := target.width } more := by
  have valid : ¬ (target.width.numerator = 0 ∨ target.width.denominator = 0) := not_or.mpr ⟨numerator, denominator⟩
  unfold Step.printWidth
  split
  · left
    rename_i one
    rw [one, ← initial]
    exact ⟨rfl, rfl⟩
  split
  · rename_i whole
    obtain ⟨count, same, reads⟩ := count_reads target.width.numerator more follows.noDigit
    have below : Reads Parser.denominator more target.width.denominator more := by
      apply Reads.peek
      rw [if_neg (follows.head_ne (by decide)), whole]
      exact pure 1 more
    right
    apply some_reads
    apply Reads.advance
    apply bind reads
    apply bind below
    rw [same, if_neg valid]
    exact pure _ more
  · obtain ⟨bottom, same', reads'⟩ := count_reads target.width.denominator more follows.noDigit
    obtain ⟨top, same, reads⟩ := count_reads target.width.numerator
      ('/' :: (Print.natural target.width.denominator ++ more)) (Stops.cons rfl _)
    have below : Reads Parser.denominator ('/' :: (Print.natural target.width.denominator ++ more))
        target.width.denominator more := by
      apply Reads.peek
      apply Reads.advance
      apply bind reads'
      rw [same']
      exact pure _ more
    rw [cons_append, append_assoc, cons_append]
    right
    apply some_reads
    apply Reads.advance
    apply bind reads
    apply bind below
    rw [same, if_neg valid]
    exact pure _ more

theorem digit_starts (starts : startsWithDigit text = true) (rest : Text) :
    startsWithDigit (text ++ rest) = true := by
  cases text with
  | nil => cases starts
  | cons c more => exact starts

theorem debug_starts (readable : Readable x) (plain : Plain lowest x) (rest : Text) :
    startsWithDigit (debug lowest x ++ rest) = true := by
  obtain ⟨l, text, -⟩ := debug_plain readable plain
  apply digit_starts
  rw [text]
  cases whole : l.whole with
  | nil => exact absurd whole l.nonempty
  | cons c more =>
    rw [Literal.text, whole]
    exact l.wholeDigits c (by rw [whole]; exact mem_cons_self)

theorem probabilityModifier_reads (step : Step) (starts : startsWithDigit text = true)
    (reads : Reads number text x rest) :
    Reads (modifier step) ('?' :: text) (some { step with probability := some x }) rest := by
  apply Reads.peek
  apply some_reads
  apply Reads.advance
  have given : Reads peekNumber text true text := by
    apply Reads.rest
    rw [starts]
    exact pure true text
  apply bind given
  apply bind reads
  exact pure _ rest

theorem velocityModifier_reads (step : Step) (reads : Reads number text x rest) :
    Reads (modifier step) ('^' :: text) (some { step with velocity := some x }) rest := by
  apply Reads.peek
  apply some_reads
  apply Reads.advance
  apply bind reads
  exact pure _ rest

theorem probability_applies (initial : step.probability = none)
    (readable : ∀ x ∈ target.probability, Readable x) (plain : ∀ x ∈ target.probability, Plain lowest x)
    (follows : Follows afterElement more) :
    Applies step (target.printProbability lowest ++ more) { step with probability := target.probability } more := by
  unfold Step.printProbability
  cases given : target.probability with
  | none => exact Or.inl ⟨by rw [← initial], rfl⟩
  | some x =>
    right
    exact probabilityModifier_reads step (debug_starts (readable x given) (plain x given) more)
      (number_reads (readable x given) (plain x given) follows.noDigit follows.noPoint)

theorem velocity_applies (initial : step.velocity = none)
    (readable : ∀ x ∈ target.velocity, Readable x) (plain : ∀ x ∈ target.velocity, Plain lowest x)
    (follows : Follows afterElement more) :
    Applies step (target.printVelocity lowest ++ more) { step with velocity := target.velocity } more := by
  unfold Step.printVelocity
  cases given : target.velocity with
  | none => exact Or.inl ⟨by rw [← initial], rfl⟩
  | some x =>
    right
    exact velocityModifier_reads step
      (number_reads (readable x given) (plain x given) follows.noDigit follows.noPoint)

def startsModifier (c : Char) : Bool := c == '*' || c == '!' || c == '@' || c == '?' || c == '^'

theorem modifiers_stop (step : Step) (stops : Stops startsModifier rest) (fuel : Nat) :
    Reads (modifiers fuel step) rest step rest := by
  cases fuel with
  | zero => exact exhausted _ _ _
  | succ fuel =>
    have absent : Reads (modifier step) rest none rest := by
      apply Reads.peek
      split
      · exact absurd (stops _ ‹_›) (by decide)
      · exact absurd (stops _ ‹_›) (by decide)
      · exact absurd (stops _ ‹_›) (by decide)
      · exact absurd (stops _ ‹_›) (by decide)
      · exact absurd (stops _ ‹_›) (by decide)
      · exact pure none rest
    apply bind absent
    exact pure step rest

section

variable (target) (follows : Follows afterElement more)
include target follows

theorem printRepeats_follows :
    Follows afterElement (target.printRepeats ++ more) := by
  unfold Step.printRepeats
  split
  · exact Follows.cons (by decide) _
  · exact follows

theorem printReplicate_follows :
    Follows afterElement (target.printReplicate ++ more) := by
  unfold Step.printReplicate
  split
  · exact Follows.cons (by decide) _
  · exact follows

theorem printWidth_follows :
    Follows afterElement (target.printWidth ++ more) := by
  unfold Step.printWidth
  split
  · exact follows
  split
  · exact Follows.cons (by decide) _
  · exact Follows.cons (by decide) _

end

section

variable (lowest target) (follows : Follows afterElement more)
include lowest target follows

theorem printProbability_follows :
    Follows afterElement (target.printProbability lowest ++ more) := by
  unfold Step.printProbability
  split
  · exact follows
  · exact Follows.cons (by decide) _

theorem printVelocity_follows :
    Follows afterElement (target.printVelocity lowest ++ more) := by
  unfold Step.printVelocity
  split
  · exact follows
  · exact Follows.cons (by decide) _

theorem printModifiers_follows :
    Follows afterElement (target.printModifiers lowest ++ more) := by
  unfold Step.printModifiers
  simp only [append_assoc]
  exact printRepeats_follows target (printReplicate_follows target (printWidth_follows target
    (printProbability_follows lowest target (printVelocity_follows lowest target follows))))

end

def counted (target : Step) : Step := { Step.plain target.element with
  repeats := target.repeats
  replicate := target.replicate
  width := target.width }

/-- The counts and the width of the printed modifiers are read back, whatever comes after them. -/
theorem counts_read {final : Step} (modified : target.Modified)
    (follows : Follows afterElement more) (tail : ∀ fuel, Reads (modifiers fuel (counted target)) more final rest)
    (fuel : Nat) : Reads (modifiers fuel (Step.plain target.element))
      (target.printRepeats ++ (target.printReplicate ++ (target.printWidth ++ more))) final rest := by
  have widths := printWidth_follows target follows
  have replicates := printReplicate_follows target widths
  apply (repeats_applies rfl modified.repeats replicates).reads
  apply (replicate_applies rfl modified.replicate widths).reads
  exact (width_applies rfl modified.numerator modified.denominator follows).reads tail

theorem modifiers_read (modified : target.Modified) (probability : ∀ x ∈ target.probability, Plain lowest x)
    (velocity : ∀ x ∈ target.velocity, Plain lowest x) (follows : Follows afterStep rest) (fuel : Nat) :
    Reads (modifiers fuel (Step.plain target.element)) (target.printModifiers lowest ++ rest) target rest := by
  have after := follows.step_to_element
  have velocities := printVelocity_follows lowest target after
  unfold Step.printModifiers
  simp only [append_assoc]
  apply counts_read modified (printProbability_follows lowest target velocities)
  apply (probability_applies rfl modified.probability probability velocities).reads
  apply (velocity_applies rfl modified.velocity velocity after).reads
  exact modifiers_stop target (follows.rejects startsModifier rfl)

end Parser

end Audec.PatternLang
