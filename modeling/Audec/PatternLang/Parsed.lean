import Audec.PatternLang.Tally

namespace Audec.PatternLang

open Machine FloatDebug FloatDecimal Traced Scanner.Completes Passes Tally

mutual

def Element.floats : Element → List Float32
  | .rest => []
  | .name _ _ => []
  | .group steps => stepsFloats steps
  | .alternate steps => stepsFloats steps

def stepsFloats : List (StepOf Element) → List Float32
  | [] => []
  | step :: more => stepFloats step ++ stepsFloats more

def stepFloats : StepOf Element → List Float32
  | ⟨element, _, _, _, probability, velocity⟩ => element.floats ++ (probability.toList ++ velocity.toList)

end

def PatternTransform.floats : PatternTransform → List Float32
  | .rotate _ => []
  | .gain linear => [linear]
  | .degrade probability => [probability]

mutual

def PatternExpr.floats : PatternExpr → List Float32
  | .seq steps => stepsFloats steps
  | .stack members => membersFloats members
  | .every _ _ transform inner => transform.floats ++ inner.floats
  | .rotate _ inner => inner.floats
  | .euclid _ _ _ element => element.floats
  | .fast _ inner => inner.floats
  | .slow _ inner => inner.floats
  | .swing amount inner => amount :: inner.floats
  | .gain linear inner => linear :: inner.floats
  | .degrade probability inner => probability :: inner.floats

def membersFloats : List PatternExpr → List Float32
  | [] => []
  | member :: more => member.floats ++ membersFloats more

end

/-- A number the parser can read. -/
def Readable (x : Float32) : Prop := Unsigned x.toModel.unpack

def IsIdent : Text → Prop
  | [] => False
  | c :: more => Parser.isIdentStart c = true ∧ ∀ d ∈ more, Parser.isIdentRest d = true

structure Step.Modified (step : Step) : Prop where
  numerator : step.width.numerator ≠ 0
  denominator : step.width.denominator ≠ 0
  replicate : step.replicate ≠ 0
  repeats : step.repeats ≠ 0
  probability : ∀ x ∈ step.probability, Readable x
  velocity : ∀ x ∈ step.velocity, Readable x

mutual

def Element.WellFormed : Element → Prop
  | .rest => True
  | .name binding _ => IsIdent binding
  | .group steps => steps ≠ [] ∧ StepsWellFormed steps
  | .alternate steps => steps ≠ [] ∧ StepsWellFormed steps

def StepsWellFormed : List (StepOf Element) → Prop
  | [] => True
  | step :: more => StepWellFormed step ∧ StepsWellFormed more

def StepWellFormed : StepOf Element → Prop
  | ⟨element, width, replicate, repeats, probability, velocity⟩ =>
    element.WellFormed ∧ Step.Modified ⟨element, width, replicate, repeats, probability, velocity⟩

end

def PatternTransform.WellFormed (transform : PatternTransform) : Prop := ∀ x ∈ transform.floats, Readable x

mutual

/-- The terms the parser can return. -/
def PatternExpr.WellFormed : PatternExpr → Prop
  | .seq steps => steps ≠ [] ∧ StepsWellFormed steps
  | .stack members => members ≠ [] ∧ MembersWellFormed members
  | .every _ _ transform inner => transform.WellFormed ∧ inner.WellFormed
  | .rotate _ inner => inner.WellFormed
  | .euclid _ _ _ element => element.WellFormed
  | .fast _ inner => inner.WellFormed
  | .slow _ inner => inner.WellFormed
  | .swing amount inner => Readable amount ∧ inner.WellFormed
  | .gain linear inner => Readable linear ∧ inner.WellFormed
  | .degrade probability inner => Readable probability ∧ inner.WellFormed

def MembersWellFormed : List PatternExpr → Prop
  | [] => True
  | member :: more => member.WellFormed ∧ MembersWellFormed more

end

namespace Parser

open Scanner hiding pure bind

/-- A parser that returns a value of some kind has consumed something, and what it passed covers the tally of the value. -/
def Takes {α : Type} (p : Parser α) (condition : α → Prop) (tally : α → Tally) : Prop :=
  ∀ text, Completes p text fun value rest => rest.length < text.length ∧ condition value ∧ Passes text (tally value) rest

theorem dropWhile_length_le (test : Char → Bool) (text : Text) : (text.dropWhile test).length ≤ text.length :=
  (List.dropWhile_suffix test).length_le

theorem skipSpace_takes (text : Text) : Completes skipSpace text fun _ rest => rest.length ≤ text.length ∧ Passes text 0 rest :=
  takeWhile (pure ⟨dropWhile_length_le isSpace text, takeWhile space_plain text⟩)

variable {c : Char} {text : Text}

theorem tail_shorter (starts : text.head? = some c) : text.tail.length < text.length := by
  cases text with
  | nil => cases starts
  | cons d more => exact Nat.lt_succ_self _

theorem expect_takes (c : Char) : Takes (expect c) (fun _ => True) fun _ => .of [c] := by
  intro text
  apply Completes.peek
  split
  · change Completes (Scanner.advance >>= fun _ => pure ()) _ _
    exact advance (pure ⟨tail_shorter ‹_›, trivial, tail ‹_›⟩)
  · exact fail _ _ _

theorem comma_takes (text : Text) : Completes comma text fun found rest => rest.length ≤ text.length ∧
    (found = true → rest.length < text.length) ∧ Passes text (if found then ⟨1, 0⟩ else 0) rest := by
  apply bind (skipSpace_takes text)
  rintro _ middle ⟨shorter, before⟩
  apply Completes.peek
  split
  · have := tail_shorter ‹_›
    apply Completes.advance
    apply bind (skipSpace_takes middle.tail)
    rintro _ rest ⟨skipped, after⟩
    exact pure ⟨by omega, fun _ => by omega, ((before.and_then (tail ‹_›)).and_then after).of_same rfl rfl⟩
  · exact pure ⟨shorter, (fun impossible => nomatch impossible), before⟩

theorem requireComma_takes : Takes requireComma (fun _ => True) fun _ => ⟨1, 0⟩ := by
  intro text
  apply bind (comma_takes text)
  rintro found rest ⟨-, consumed, passed⟩
  cases found with
  | true => exact pure ⟨consumed rfl, trivial, passed⟩
  | false =>
    rw [if_neg Bool.false_ne_true]
    exact fail _ _ _

theorem identText_some {word more : Text} (found : identText text = some (word, more)) :
    IsIdent word ∧ more.length < text.length := by
  cases text with
  | nil => cases found
  | cons c rest =>
    by_cases starts : isIdentStart c = true
    · rw [identText, if_pos starts] at found
      cases found
      refine ⟨⟨starts, fun d inside => List.mem_takeWhile_imp inside⟩, ?_⟩
      exact Nat.lt_succ_of_le (dropWhile_length_le isIdentRest rest)
    · rw [identText, if_neg starts] at found
      cases found

theorem ident_takes (text : Text) : Completes ident text fun word rest => rest.length ≤ text.length ∧
    (∀ w ∈ word, IsIdent w ∧ rest.length < text.length) ∧ Passes text (.of (word.getD [])) rest := by
  unfold ident
  intro total
  dsimp only
  split
  · exact pure_at text ⟨Nat.le_refl _, (fun w inside => nomatch inside), nothing text⟩ total
  · rename_i word more found
    have known := identText_some found
    refine pure_at more ⟨Nat.le_of_lt known.2, ?_, identText_spends found⟩ total
    intro w inside
    cases inside
    exact known

theorem digits_shorter (some : text.takeWhile Char.isDigit ≠ []) :
    (text.dropWhile Char.isDigit).length < text.length := by
  have whole := congrArg List.length (List.takeWhile_append_dropWhile (p := Char.isDigit) (l := text))
  rw [List.length_append] at whole
  have := List.length_pos_iff.mpr some
  omega

theorem integer_takes : Takes integer (fun _ => True) fun _ => 0 := by
  intro text
  have passed := takeWhile digit_plain text
  apply Completes.takeWhile
  dsimp only
  split
  · exact fail _ _ _
  · split
    · exact pure ⟨digits_shorter ‹_›, trivial, passed⟩
    · exact fail _ _ _

theorem negate_completes (magnitude : I64) (text : Text) : Completes (negate magnitude) text fun _ rest => rest = text := by
  apply Completes.observe
  split
  · exact fault _ _
  · exact pure rfl

theorem signedInteger_takes : Takes signedInteger (fun _ => True) fun _ => 0 := by
  intro text
  apply Completes.peek
  split
  · apply Completes.advance
    apply bind (integer_takes text.tail)
    rintro n rest ⟨shorter, -, passed⟩
    apply mono (negate_completes _ rest)
    rintro _ _ rfl
    rw [List.length_tail] at shorter
    exact ⟨by omega, trivial, ((tail ‹_›).and_then passed).of_same rfl rfl⟩
  · apply bind (integer_takes text)
    rintro n rest ⟨shorter, -, passed⟩
    exact pure ⟨shorter, trivial, passed⟩

theorem fraction_takes (text : Text) : Completes fraction text fun digits rest => rest.length ≤ text.length ∧
    (digits.isSome = true → rest.length < text.length) ∧ Passes text 0 rest := by
  apply Completes.peek
  split
  · have := tail_shorter ‹_›
    apply Completes.advance
    have passed := takeWhile digit_plain text.tail
    apply Completes.takeWhile
    have := dropWhile_length_le Char.isDigit text.tail
    exact pure ⟨by omega, fun _ => by omega, ((tail ‹_›).and_then passed).of_same rfl rfl⟩
  · exact pure ⟨Nat.le_refl _, (fun impossible => nomatch impossible), nothing text⟩

theorem number_takes : Takes number Readable fun _ => 0 := by
  intro text
  have whole := takeWhile digit_plain text
  apply Completes.takeWhile
  apply bind (fraction_takes _)
  rintro digits rest ⟨shorter, pointed, passed⟩
  cases digits with
  | none =>
    dsimp only
    split
    · exact fail _ _ _
    · have := digits_shorter ‹_›
      exact pure ⟨by omega, readDecimal_unsigned _ _, whole.and_then passed⟩
  | some digits =>
    dsimp only
    split
    · exact fail _ _ _
    · have := dropWhile_length_le Char.isDigit text
      have := pointed rfl
      exact pure ⟨by omega, readDecimal_unsigned _ _, whole.and_then passed⟩

/-- The argument of a transform, whose letters were passed with its word. -/
theorem argument_takes {α : Type} {p : Parser α} {condition : α → Prop} (takes : Takes p condition fun _ => 0) (wrap : α → PatternTransform)
    {tally : Tally} (wellFormed : ∀ argument, condition argument → (wrap argument).WellFormed)
    (same : ∀ argument, (wrap argument).tally = tally) (text : Text) : Completes (do
      let argument ← p
      pure (wrap argument)) text fun transform rest =>
        rest.length < text.length ∧ transform.WellFormed ∧ transform.tally = tally ∧ Passes text 0 rest := by
  apply bind (takes text)
  rintro argument rest ⟨shorter, holds, passed⟩
  exact pure ⟨shorter, wellFormed argument holds, same argument, passed⟩

theorem transformCall_takes (word text : Text) : Completes (transformCall word) text fun transform rest =>
    rest.length < text.length ∧ transform.WellFormed ∧ transform.tally = .of word + ⟨1, 0⟩ ∧ Passes text 0 rest := by
  unfold transformCall
  split
  · subst word
    exact argument_takes signedInteger_takes (fun steps => .rotate (asI32 steps)) (fun _ _ x inside => nomatch inside) (fun _ => rfl) text
  split
  · subst word
    exact argument_takes number_takes .gain (fun _ readable => List.forall_mem_singleton.mpr readable) (fun _ => rfl) text
  split
  · subst word
    exact argument_takes number_takes .degrade (fun _ readable => List.forall_mem_singleton.mpr readable) (fun _ => rfl) text
  · exact fail _ _ _

theorem transform_takes : Takes transform PatternTransform.WellFormed PatternTransform.tally := by
  intro text
  apply bind (ident_takes text)
  rintro word rest ⟨shorter, -, named⟩
  cases word with
  | none => exact fail _ _ _
  | some word =>
    dsimp only
    apply bind (expect_takes '(' rest)
    rintro _ rest₁ ⟨shorter₁, -, opened⟩
    apply bind (skipSpace_takes rest₁)
    rintro _ rest₂ ⟨shorter₂, spaced⟩
    apply bind (transformCall_takes word rest₂)
    rintro transform rest₃ ⟨shorter₃, wellFormed, tally, called⟩
    apply bind (skipSpace_takes rest₃)
    rintro _ rest₄ ⟨shorter₄, spaced'⟩
    apply bind (expect_takes ')' rest₄)
    rintro _ rest₅ ⟨shorter₅, -, closed⟩
    refine pure ⟨by omega, wellFormed, ?_⟩
    rw [tally]
    exact ((((((named.and_then opened).and_then spaced).and_then called).and_then spaced').and_then closed).of_same rfl rfl)

theorem u32_takes : Takes u32 (fun _ => True) fun _ => 0 := by
  intro text
  apply bind (integer_takes text)
  rintro n rest ⟨shorter, -, passed⟩
  exact pure ⟨shorter, trivial, passed⟩

def Alters (p : Parser Step) (step : Step) (text : Text) : Prop :=
  Completes p text fun next rest => rest.length < text.length ∧ next.element = step.element ∧ Step.Modified next ∧ Passes text 0 rest

theorem repeatModifier_alters {step : Step} (modified : step.Modified)
    (starts : text.head? = some '*') : Alters (repeatModifier step) step text := by
  have := tail_shorter starts
  apply Completes.advance
  apply bind (integer_takes text.tail)
  rintro count rest ⟨shorter, -, passed⟩
  split
  · exact fail _ _ _
  · exact pure ⟨by omega, rfl, { modified with repeats := ‹_› }, ((tail starts).and_then passed).of_same rfl rfl⟩

theorem replicateModifier_alters {step : Step} (modified : step.Modified)
    (starts : text.head? = some '!') : Alters (replicateModifier step) step text := by
  have := tail_shorter starts
  apply Completes.advance
  apply bind (integer_takes text.tail)
  rintro count rest ⟨shorter, -, passed⟩
  split
  · exact fail _ _ _
  · exact pure ⟨by omega, rfl, { modified with replicate := ‹_› }, ((tail starts).and_then passed).of_same rfl rfl⟩

theorem denominator_takes (text : Text) :
    Completes denominator text fun _ rest => rest.length ≤ text.length ∧ Passes text 0 rest := by
  apply Completes.peek
  split
  · have := tail_shorter ‹_›
    apply Completes.advance
    apply bind (integer_takes text.tail)
    rintro n rest ⟨shorter, -, passed⟩
    exact pure ⟨by omega, ((tail ‹_›).and_then passed).of_same rfl rfl⟩
  · exact pure ⟨Nat.le_refl _, nothing text⟩

theorem widthModifier_alters {step : Step} (modified : step.Modified)
    (starts : text.head? = some '@') : Alters (widthModifier step) step text := by
  have := tail_shorter starts
  apply Completes.advance
  apply bind (integer_takes text.tail)
  rintro numerator rest ⟨shorter, -, passed⟩
  apply bind (denominator_takes rest)
  rintro denominator rest' ⟨shorter', passed'⟩
  split
  · exact fail _ _ _
  · rename_i positive
    rw [not_or] at positive
    exact pure ⟨by omega, rfl, { modified with numerator := positive.1, denominator := positive.2 },
      (((tail starts).and_then passed).and_then passed').of_same rfl rfl⟩

theorem readable_half : Readable 0.5 := by
  have half : (0.5 : Float32) = readDecimal 5 1 := by rfl
  rw [half]
  exact readDecimal_unsigned 5 1

theorem peekNumber_completes (text : Text) :
    Completes peekNumber text fun given rest => rest = text ∧ given = startsWithDigit text :=
  rest (pure ⟨rfl, rfl⟩)

theorem peekSignedInteger_completes (text : Text) :
    Completes peekSignedInteger text fun _ rest => rest = text := by
  apply Completes.rest
  split
  · exact pure rfl
  · exact pure rfl

theorem probabilityModifier_alters {step : Step} (modified : step.Modified)
    (starts : text.head? = some '?') : Alters (probabilityModifier step) step text := by
  have := tail_shorter starts
  apply Completes.advance
  apply bind (peekNumber_completes text.tail)
  rintro given _ ⟨rfl, -⟩
  split
  · apply bind (number_takes text.tail)
    rintro probability rest ⟨shorter, readable, passed⟩
    refine pure ⟨by omega, rfl, { modified with probability := ?_ }, ((tail starts).and_then passed).of_same rfl rfl⟩
    rintro x ⟨⟩
    exact readable
  · refine pure ⟨this, rfl, { modified with probability := ?_ }, (tail starts).of_same rfl rfl⟩
    rintro x ⟨⟩
    exact readable_half

theorem velocityModifier_alters {step : Step} (modified : step.Modified)
    (starts : text.head? = some '^') : Alters (velocityModifier step) step text := by
  have := tail_shorter starts
  apply Completes.advance
  apply bind (number_takes text.tail)
  rintro velocity rest ⟨shorter, readable, passed⟩
  refine pure ⟨by omega, rfl, { modified with velocity := ?_ }, ((tail starts).and_then passed).of_same rfl rfl⟩
  rintro x ⟨⟩
  exact readable

theorem some_alters {p : Parser Step} {step : Step} (alters : Alters p step text) :
    Completes (some <$> p) text fun next rest => (next = none → rest = text) ∧
      ∀ s ∈ next, rest.length < text.length ∧ s.element = step.element ∧ Step.Modified s ∧ Passes text 0 rest := by
  apply bind alters
  intro next rest holds
  refine pure ⟨(fun impossible => nomatch impossible), ?_⟩
  rintro s ⟨⟩
  exact holds

theorem modifier_alters {step : Step} (modified : step.Modified) (text : Text) :
    Completes (modifier step) text fun next rest => (next = none → rest = text) ∧
      ∀ s ∈ next, rest.length < text.length ∧ s.element = step.element ∧ Step.Modified s ∧ Passes text 0 rest := by
  apply Completes.peek
  split
  · exact some_alters (repeatModifier_alters modified ‹_›)
  · exact some_alters (replicateModifier_alters modified ‹_›)
  · exact some_alters (widthModifier_alters modified ‹_›)
  · exact some_alters (probabilityModifier_alters modified ‹_›)
  · exact some_alters (velocityModifier_alters modified ‹_›)
  · exact pure ⟨fun _ => rfl, fun s inside => nomatch inside⟩

theorem modifiers_alter (fuel : Nat) {step : Step} (modified : step.Modified) (text : Text)
    (enough : text.length < fuel) : Completes (modifiers fuel step) text fun next rest =>
      rest.length ≤ text.length ∧ next.element = step.element ∧ Step.Modified next ∧ Passes text 0 rest := by
  induction fuel generalizing step text with
  | zero => exact absurd enough (Nat.not_lt_zero _)
  | succ fuel ih =>
    apply bind (modifier_alters modified text)
    rintro next rest ⟨stopped, continued⟩
    cases next with
    | none =>
      rw [stopped rfl]
      exact pure ⟨Nat.le_refl _, rfl, modified, nothing text⟩
    | some next =>
      obtain ⟨shorter, same, modified', passed⟩ := continued next rfl
      apply mono (ih modified' rest (by omega))
      rintro final rest' ⟨shorter', same', modified'', passed'⟩
      exact ⟨by omega, same'.trans same, modified'', (passed.and_then passed').of_same rfl rfl⟩

theorem plain_modified (element : Element) : (Step.plain element).Modified where
  numerator := one_ne_zero
  denominator := one_ne_zero
  replicate := one_ne_zero
  repeats := one_ne_zero
  probability := fun _ inside => nomatch inside
  velocity := fun _ inside => nomatch inside

theorem ident_starts (starts : text.head? = some c) (lower : isIdentStart c = true) : Completes ident text fun word rest =>
    ∃ w, word = some w ∧ IsIdent w ∧ rest.length < text.length ∧ Passes text (.of w) rest := by
  obtain ⟨more, rfl⟩ := List.head?_eq_some_iff.mp starts
  have found : identText (c :: more) = some (c :: more.takeWhile isIdentRest, more.dropWhile isIdentRest) := by
    rw [identText, if_pos lower]
  have known := identText_some found
  intro total
  unfold ident
  simp only [found]
  exact pure_at (more.dropWhile isIdentRest) ⟨_, rfl, known.1, known.2, identText_spends found⟩ total

theorem nameElement_takes (starts : text.head? = some c) (lower : isIdentStart c = true) : Completes nameElement text
    fun element rest => rest.length < text.length ∧ element.WellFormed ∧ Passes text element.tally rest := by
  apply bind (ident_starts starts lower)
  rintro _ rest ⟨word, rfl, ident, shorter, named⟩
  apply Completes.peek
  split
  · have := tail_shorter ‹_›
    apply Completes.advance
    apply bind (integer_takes rest.tail)
    rintro variant rest' ⟨shorter', -, passed⟩
    exact pure ⟨by omega, ident, ((named.and_then (tail ‹_›)).and_then passed).of_same rfl rfl⟩
  · exact pure ⟨shorter, ident, named⟩

theorem callText_some {more : Text} {word : Combinator} (found : callText text = some (word, more)) :
    more.length < text.length ∧ Passes text (.of word.word) more := by
  unfold callText at found
  split at found
  · rename_i name rest named
    rw [Option.map_eq_some_iff] at found
    obtain ⟨known, among, same⟩ := found
    cases same
    have spelled := List.find?_some among
    rw [of_decide_eq_true spelled]
    exact ⟨(identText_some named).2, identText_spends named⟩
  · cases found

theorem callWord_takes (text : Text) : Completes callWord text fun found rest =>
    (found = none → rest = text) ∧ ∀ word ∈ found, rest.length < text.length ∧ Passes text (.of word.word) rest := by
  intro total
  unfold callWord
  dsimp only
  split
  · exact pure_at text ⟨fun _ => rfl, fun word inside => nomatch inside⟩ total
  · rename_i word more found
    refine pure_at more ⟨(fun impossible => nomatch impossible), ?_⟩ total
    rintro _ ⟨⟩
    exact callText_some found

theorem everyOffset_takes (text : Text) : Completes everyOffset text fun offset rest =>
    rest.length ≤ text.length ∧ Passes text ⟨if offset = 0 then 0 else 1, 0⟩ rest := by
  apply bind (peekNumber_completes text)
  rintro given _ ⟨rfl, -⟩
  split
  · apply bind (u32_takes _)
    rintro offset rest ⟨shorter, -, passed⟩
    apply bind (requireComma_takes rest)
    rintro _ rest' ⟨shorter', -, separated⟩
    refine pure ⟨by omega, ?_⟩
    have both := passed.and_then separated
    by_cases zero : offset = 0
    · exact both.of_fewer (by simp [zero])
    · exact both.of_same (by simp [zero]) (by simp)
  · exact pure ⟨Nat.le_refl _, nothing _⟩

/-- What the recursive parsers do within a recursion bound of at least five calls for each character. -/
structure TakeWithin (fuel : Nat) : Prop where
  expr : ∀ text : Text, 5 * text.length + 5 ≤ fuel → Completes (expr fuel) text fun expr rest =>
    rest.length < text.length ∧ expr.WellFormed ∧ Passes text expr.tally rest
  tryCall : ∀ text : Text, 5 * text.length + 4 ≤ fuel → Completes (tryCall fuel) text fun call rest => (call = none → rest = text) ∧
    ∀ expr ∈ call, rest.length < text.length ∧ expr.WellFormed ∧ Passes text expr.tally rest
  callBody : ∀ (before : Text) (word : Combinator) (text : Text), Passes before (.of word.word + ⟨1, 0⟩) text → 5 * text.length + 6 ≤ fuel →
    Completes (callBody fuel word) text fun expr rest => rest.length < text.length ∧ expr.WellFormed ∧ Passes before expr.tally rest
  stackMembers : ∀ text : Text, 5 * text.length + 5 ≤ fuel → Completes (stackMembers fuel) text fun members rest =>
    rest.length ≤ text.length ∧ MembersWellFormed members ∧ Passes text (membersTally members) rest
  euclidArguments : ∀ (before : Text) (rotation : I32) (found : Option Element) (text : Text),
    Passes before (argumentsTally rotation found) text → (∀ e ∈ found, e.WellFormed) → 5 * text.length + 5 ≤ fuel →
    Completes (euclidArguments fuel rotation found) text fun arguments rest => rest.length ≤ text.length ∧
      (∀ e ∈ arguments.2, e.WellFormed) ∧ Passes before (argumentsTally arguments.1 arguments.2) rest
  steps : ∀ text : Text, 5 * text.length + 3 ≤ fuel → Completes (steps fuel) text fun steps rest => rest.length ≤ text.length ∧
    (steps ≠ [] → rest.length < text.length) ∧ StepsWellFormed steps ∧ Passes text (stepsTally steps) rest
  step : ∀ text : Text, 5 * text.length + 2 ≤ fuel → Completes (step fuel) text fun step rest =>
    rest.length < text.length ∧ StepWellFormed step ∧ Passes text (stepTally step) rest
  element : ∀ text : Text, 5 * text.length + 1 ≤ fuel → Completes (element fuel) text fun element rest =>
    rest.length < text.length ∧ element.WellFormed ∧ Passes text element.tally rest

namespace TakeWithin

variable {fuel : Nat} (within : TakeWithin fuel)

include within

theorem expr_succ (text : Text) (enough : 5 * text.length + 5 ≤ fuel + 1) : Completes (Parser.expr (fuel + 1)) text
    fun expr rest => rest.length < text.length ∧ expr.WellFormed ∧ Passes text expr.tally rest := by
  rw [Parser.expr]
  apply bind (within.tryCall text (by omega))
  rintro call rest ⟨absent, present⟩
  cases call with
  | some call => exact pure (present call rfl)
  | none =>
    rw [absent rfl]
    apply bind (within.steps text (by omega))
    rintro steps rest' ⟨-, shorter, wellFormed, passed⟩
    split
    · exact fail _ _ _
    · rename_i nonempty
      rw [List.isEmpty_iff] at nonempty
      exact pure ⟨shorter nonempty, ⟨nonempty, wellFormed⟩, passed⟩

theorem tryCall_succ (text : Text) (enough : 5 * text.length + 4 ≤ fuel + 1) :
    Completes (Parser.tryCall (fuel + 1)) text fun call rest => (call = none → rest = text) ∧
      ∀ expr ∈ call, rest.length < text.length ∧ expr.WellFormed ∧ Passes text expr.tally rest := by
  rw [Parser.tryCall]
  apply bind (callWord_takes text)
  rintro word rest ⟨absent, present⟩
  cases word with
  | none => exact pure ⟨fun _ => absent rfl, fun expr inside => nomatch inside⟩
  | some word =>
    obtain ⟨shorter, named⟩ := present word rfl
    apply bind (expect_takes '(' rest)
    rintro _ rest₁ ⟨shorter₁, -, opened⟩
    apply bind (skipSpace_takes rest₁)
    rintro _ rest₂ ⟨shorter₂, spaced⟩
    have called := ((named.and_then opened).and_then spaced).of_same rfl rfl
    apply bind (within.callBody text word rest₂ called (by omega))
    rintro call rest₃ ⟨shorter₃, wellFormed, passed⟩
    apply bind (skipSpace_takes rest₃)
    rintro _ rest₄ ⟨shorter₄, spaced'⟩
    apply bind (expect_takes ')' rest₄)
    rintro _ rest₅ ⟨shorter₅, -, closed⟩
    refine pure ⟨(fun impossible => nomatch impossible), ?_⟩
    rintro _ ⟨⟩
    exact ⟨by omega, wellFormed, ((passed.and_then spaced').and_then closed).of_same rfl rfl⟩

theorem wrapped {before : Text} {tally : Tally} (passed : Passes before tally text) (wrap : PatternExpr → PatternExpr)
    (enough : 5 * text.length + 5 ≤ fuel + 1) (wellFormed : ∀ inner : PatternExpr, inner.WellFormed → (wrap inner).WellFormed)
    (same : ∀ inner : PatternExpr, (wrap inner).tally = tally + (⟨1, 0⟩ + inner.tally)) : Completes (do
      requireComma
      let inner ← Parser.expr fuel
      pure (wrap inner)) text fun expr rest => rest.length < text.length ∧ expr.WellFormed ∧ Passes before expr.tally rest := by
  apply bind (requireComma_takes text)
  rintro _ rest ⟨shorter, -, separated⟩
  apply bind (within.expr rest (by omega))
  rintro inner rest' ⟨shorter', inner', inside⟩
  refine pure ⟨by omega, wellFormed inner inner', ?_⟩
  rw [same]
  exact passed.and_then (separated.and_then inside)

/-- A combinator of one argument before its pattern. -/
theorem argument_wrapped {α : Type} {p : Parser α} {condition : α → Prop} (takes : Takes p condition fun _ => 0) {before : Text} {tally : Tally}
    (called : Passes before tally text) (wrap : α → PatternExpr → PatternExpr) (enough : 5 * text.length + 5 ≤ fuel + 1)
    (wellFormed : ∀ argument, condition argument → ∀ inner : PatternExpr, inner.WellFormed → (wrap argument inner).WellFormed)
    (same : ∀ argument (inner : PatternExpr), (wrap argument inner).tally = tally + (⟨1, 0⟩ + inner.tally)) : Completes (do
      let argument ← p
      requireComma
      let inner ← Parser.expr fuel
      pure (wrap argument inner)) text fun expr rest => rest.length < text.length ∧ expr.WellFormed ∧ Passes before expr.tally rest := by
  apply bind (takes text)
  rintro argument rest ⟨shorter, holds, given⟩
  have passed := called.and_then given
  rw [add_zero] at passed
  apply mono (within.wrapped passed (wrap argument) (by omega) (wellFormed argument holds) (same argument))
  rintro expr rest' ⟨shorter', expr'⟩
  exact ⟨by omega, expr'⟩

theorem callBody_succ (before : Text) (word : Combinator) (text : Text) (called : Passes before (.of word.word + ⟨1, 0⟩) text)
    (enough : 5 * text.length + 6 ≤ fuel + 1) : Completes (Parser.callBody (fuel + 1) word) text
      fun expr rest => rest.length < text.length ∧ expr.WellFormed ∧ Passes before expr.tally rest := by
  cases word with
  | seq =>
    apply mono (within.expr text (by omega))
    rintro expr rest ⟨shorter, expr', passed⟩
    -- the word `seq` is not printed, but neither is its parenthesis
    exact ⟨shorter, expr', (called.and_then passed).of_fewer (by simp only [add_marks]; omega)⟩
  | stack =>
    apply bind (within.expr text (by omega))
    rintro first rest ⟨shorter, first', passed⟩
    apply bind (within.stackMembers rest (by omega))
    rintro more rest' ⟨shorter', more', passed'⟩
    exact pure ⟨by omega, ⟨List.cons_ne_nil _ _, first', more'⟩, (called.of_same rfl rfl).and_then (passed.and_then passed')⟩
  | every =>
    apply bind (u32_takes text)
    rintro period rest₁ ⟨shorter₁, -, given⟩
    apply bind (requireComma_takes rest₁)
    rintro _ rest₂ ⟨shorter₂, -, separated⟩
    apply bind (everyOffset_takes rest₂)
    rintro offset rest₃ ⟨shorter₃, shifted⟩
    apply bind (transform_takes rest₃)
    rintro transform rest₄ ⟨shorter₄, transform', transformed⟩
    have passed := (((called.and_then given).and_then separated).and_then shifted).and_then transformed
    apply mono (within.wrapped passed (.every period offset transform) (by omega) (fun inner inner' => ⟨transform', inner'⟩) ?_)
    · rintro expr rest₅ ⟨shorter₅, expr'⟩
      exact ⟨by omega, expr'⟩
    · intro inner
      have word : of Combinator.every.word = ⟨0, 5⟩ := rfl
      rw [PatternExpr.tally, word]
      ext
      · simp only [add_marks, zero_marks]
        split <;> omega
      · simp only [add_letters, zero_letters]
        omega
  | rot =>
    exact within.argument_wrapped signedInteger_takes called (fun steps => .rotate (asI32 steps)) (by omega) (fun _ _ _ inner' => inner')
      fun _ inner => call_tally 3 inner.tally
  | e =>
    apply bind (u32_takes text)
    rintro hits rest₁ ⟨shorter₁, -, given⟩
    apply bind (requireComma_takes rest₁)
    rintro _ rest₂ ⟨shorter₂, -, separated⟩
    apply bind (u32_takes rest₂)
    rintro slots rest₃ ⟨shorter₃, -, given'⟩
    apply bind (skipSpace_takes rest₃)
    rintro _ rest₄ ⟨shorter₄, spaced⟩
    have word : Passes before ⟨2, 1⟩ rest₄ :=
      ((((called.and_then given).and_then separated).and_then given').and_then spaced).of_same rfl rfl
    apply bind (within.euclidArguments rest₄ I32.zero none rest₄ (nothing rest₄) (fun _ inside => nomatch inside) (by omega))
    rintro ⟨rotation, found⟩ rest₅ ⟨shorter₅, element', passed⟩
    cases found with
    | none => exact fail _ _ _
    | some element =>
      refine pure ⟨by omega, element' element rfl, (word.and_then passed).of_same ?_ ?_⟩
      · rw [PatternExpr.tally, argumentsTally, Option.elim_some]
        simp only [add_marks]
        split <;> omega
      · rw [PatternExpr.tally, argumentsTally, Option.elim_some]
        simp only [add_letters]
        omega
  | fast =>
    exact within.argument_wrapped u32_takes called .fast (by omega) (fun _ _ _ inner' => inner') fun _ inner => call_tally 4 inner.tally
  | slow =>
    exact within.argument_wrapped u32_takes called .slow (by omega) (fun _ _ _ inner' => inner') fun _ inner => call_tally 4 inner.tally
  | swing =>
    exact within.argument_wrapped number_takes called .swing (by omega) (fun _ readable _ inner' => ⟨readable, inner'⟩)
      fun _ inner => call_tally 5 inner.tally
  | gain =>
    exact within.argument_wrapped number_takes called .gain (by omega) (fun _ readable _ inner' => ⟨readable, inner'⟩)
      fun _ inner => call_tally 4 inner.tally
  | degrade =>
    exact within.argument_wrapped number_takes called .degrade (by omega) (fun _ readable _ inner' => ⟨readable, inner'⟩)
      fun _ inner => call_tally 7 inner.tally

theorem stackMembers_succ (text : Text) (enough : 5 * text.length + 5 ≤ fuel + 1) :
    Completes (Parser.stackMembers (fuel + 1)) text fun members rest =>
      rest.length ≤ text.length ∧ MembersWellFormed members ∧ Passes text (membersTally members) rest := by
  rw [Parser.stackMembers]
  apply bind (comma_takes text)
  rintro found rest ⟨shorter, consumed, separated⟩
  cases found with
  | true =>
    have := consumed rfl
    apply bind (within.expr rest (by omega))
    rintro member rest₁ ⟨shorter₁, member', passed⟩
    apply bind (within.stackMembers rest₁ (by omega))
    rintro more rest₂ ⟨shorter₂, more', passed'⟩
    exact pure ⟨by omega, ⟨member', more'⟩, separated.and_then (passed.and_then passed')⟩
  | false => exact pure ⟨shorter, trivial, separated⟩

theorem euclidArguments_succ (before : Text) (rotation : I32) (found : Option Element) (text : Text)
    (passed : Passes before (argumentsTally rotation found) text) (found' : ∀ e ∈ found, e.WellFormed)
    (enough : 5 * text.length + 5 ≤ fuel + 1) :
    Completes (Parser.euclidArguments (fuel + 1) rotation found) text fun arguments rest => rest.length ≤ text.length ∧
      (∀ e ∈ arguments.2, e.WellFormed) ∧ Passes before (argumentsTally arguments.1 arguments.2) rest := by
  rw [Parser.euclidArguments]
  apply Completes.bind (comma_takes text)
  rintro another rest₀ ⟨shorter, consumed, separated⟩
  cases another with
  | true =>
    have := consumed rfl
    apply Completes.bind (peekSignedInteger_completes rest₀)
    rintro signed _ rfl
    split
    · rename_i first
      rw [first.2.1] at passed
      apply Completes.bind (signedInteger_takes _)
      rintro steps rest ⟨shorter₁, -, rotated⟩
      have arguments := (passed.and_then separated).and_then rotated
      apply Completes.mono (within.euclidArguments before (asI32 steps) found rest ?_ found' (by omega))
      · rintro arguments rest₂ ⟨shorter₂, arguments'⟩
        exact ⟨by omega, arguments'⟩
      by_cases zero : asI32 steps = I32.zero
      · apply arguments.of_fewer
        rw [zero]
        simp only [if_true, add_marks]
        omega
      · apply arguments.of_same
        · simp only [argumentsTally, if_neg zero, if_true, add_marks, zero_marks]
          omega
        · simp only [argumentsTally, if_true, add_letters, zero_letters]
          omega
    · apply Completes.bind (within.element _ (by omega))
      rintro element rest ⟨shorter₁, element', given⟩
      have arguments := (passed.and_then separated).and_then given
      apply Completes.mono (within.euclidArguments before rotation (some element) rest ?_ ?_ (by omega))
      · rintro arguments rest₂ ⟨shorter₂, arguments'⟩
        exact ⟨by omega, arguments'⟩
      · cases found with
        | none =>
          apply arguments.of_same
          · simp only [argumentsTally, if_true, Option.elim_none, Option.elim_some, add_marks, zero_marks]
            omega
          · simp only [argumentsTally, if_true, Option.elim_none, Option.elim_some, add_letters, zero_letters]
            omega
        | some dropped =>
          -- the element read before is dropped, and its comma is not printed
          apply arguments.of_fewer
          simp only [argumentsTally, if_true, Option.elim_some, add_marks]
          omega
      · rintro _ ⟨⟩
        exact element'
  | false => exact Completes.pure ⟨shorter, found', (passed.and_then separated).of_same rfl rfl⟩

theorem steps_succ (text : Text) (enough : 5 * text.length + 3 ≤ fuel + 1) :
    Completes (Parser.steps (fuel + 1)) text fun steps rest => rest.length ≤ text.length ∧
      (steps ≠ [] → rest.length < text.length) ∧ StepsWellFormed steps ∧ Passes text (stepsTally steps) rest := by
  rw [Parser.steps]
  apply bind (skipSpace_takes text)
  rintro _ rest ⟨shorter, spaced⟩
  apply Completes.peek
  split
  · exact pure ⟨shorter, fun impossible => absurd rfl impossible, trivial, spaced⟩
  · apply bind (within.step rest (by omega))
    rintro first rest₁ ⟨shorter₁, first', passed⟩
    apply bind (within.steps rest₁ (by omega))
    rintro more rest₂ ⟨shorter₂, -, more', passed'⟩
    have whole := spaced.and_then (passed.and_then passed')
    rw [zero_add, ← stepsTally] at whole
    exact pure ⟨by omega, fun _ => by omega, ⟨first', more'⟩, whole⟩

theorem step_succ (text : Text) (enough : 5 * text.length + 2 ≤ fuel + 1) : Completes (Parser.step (fuel + 1)) text
    fun step rest => rest.length < text.length ∧ StepWellFormed step ∧ Passes text (stepTally step) rest := by
  rw [Parser.step]
  apply bind (within.element text (by omega))
  rintro element rest ⟨shorter, element', given⟩
  apply Completes.rest
  apply mono (modifiers_alter _ (plain_modified element) rest (Nat.lt_succ_self _))
  rintro ⟨element₁, width, replicate, repeats, probability, velocity⟩ rest' ⟨shorter', same, modified, passed⟩
  cases same
  have whole := given.and_then passed
  rw [add_zero] at whole
  exact ⟨by omega, ⟨element', modified⟩, whole⟩

theorem bracketed (text : Text) (enough : 5 * text.length + 1 ≤ fuel + 1) {c : Char} (starts : text.head? = some c)
    (opening : of [c] = 0) (close : Char) (closing : of [close] = 0) (message : String) (wrap : List Step → Element)
    (wellFormed : ∀ steps, steps ≠ [] → StepsWellFormed steps → (wrap steps).WellFormed)
    (same : ∀ steps, (wrap steps).tally = stepsTally steps) :
    Completes (do
      advance
      let steps ← Parser.steps fuel
      expect close
      if steps.isEmpty then error message else pure (wrap steps)) text fun element rest =>
        rest.length < text.length ∧ element.WellFormed ∧ Passes text element.tally rest := by
  have := tail_shorter starts
  have opened := tail starts
  apply Completes.advance
  apply bind (within.steps text.tail (by omega))
  rintro steps rest ⟨shorter, -, steps', inside⟩
  apply bind (expect_takes close rest)
  rintro _ rest' ⟨shorter', -, closed⟩
  rw [opening] at opened
  rw [closing] at closed
  split
  · exact fail _ _ _
  · rename_i nonempty
    rw [List.isEmpty_iff] at nonempty
    have whole := (opened.and_then inside).and_then closed
    rw [zero_add, add_zero, ← same] at whole
    exact pure ⟨by omega, wellFormed steps nonempty steps', whole⟩

theorem element_succ (text : Text) (enough : 5 * text.length + 1 ≤ fuel + 1) : Completes (Parser.element (fuel + 1)) text
    fun element rest => rest.length < text.length ∧ element.WellFormed ∧ Passes text element.tally rest := by
  rw [Parser.element]
  apply bind (skipSpace_takes text)
  rintro _ rest ⟨shorter, spaced⟩
  apply Completes.peek
  have after (element : Element) (rest' : Text) (taken : rest'.length < rest.length ∧ element.WellFormed ∧ Passes rest element.tally rest') :
      rest'.length < text.length ∧ element.WellFormed ∧ Passes text element.tally rest' := by
    have whole := spaced.and_then taken.2.2
    rw [zero_add] at whole
    exact ⟨by omega, taken.2.1, whole⟩
  split
  · exact advance (pure (after .rest _ ⟨tail_shorter ‹_›, trivial, (tail ‹_›).of_same rfl rfl⟩))
  · exact mono (within.bracketed rest (by omega) ‹_› rfl ']' rfl "empty group" .group
      (fun steps nonempty steps' => ⟨nonempty, steps'⟩) fun _ => rfl) after
  · exact mono (within.bracketed rest (by omega) ‹_› rfl '>' rfl "empty alternation" .alternate
      (fun steps nonempty steps' => ⟨nonempty, steps'⟩) fun _ => rfl) after
  · split
    · rename_i lower
      obtain ⟨c, starts, lower⟩ := (Option.any_eq_true _ _).mp lower
      exact mono (nameElement_takes starts lower) after
    · exact fail _ _ _

end TakeWithin

theorem takeWithin (fuel : Nat) : TakeWithin fuel := by
  induction fuel with
  | zero => constructor <;> intros <;> omega
  | succ fuel within => exact
    { expr := within.expr_succ
      tryCall := within.tryCall_succ
      callBody := within.callBody_succ
      stackMembers := within.stackMembers_succ
      euclidArguments := within.euclidArguments_succ
      steps := within.steps_succ
      step := within.step_succ
      element := within.element_succ }

theorem source_takes (text : Text) : Completes (source (5 * text.length + 6)) text fun expr _ =>
    expr.WellFormed ∧ Passes text expr.tally [] := by
  apply bind (skipSpace_takes text)
  rintro _ rest ⟨shorter, spaced⟩
  apply bind ((takeWithin (5 * text.length + 6)).expr rest (by omega))
  rintro expr rest₁ ⟨shorter₁, expr', passed⟩
  apply bind (skipSpace_takes rest₁)
  rintro _ rest₂ ⟨shorter₂, spaced'⟩
  apply Completes.peek
  split
  · rename_i finished
    rw [List.head?_eq_none_iff.mp finished] at spaced'
    have whole := (spaced.and_then passed).and_then spaced'
    rw [zero_add, add_zero] at whole
    exact pure ⟨expr', whole⟩
  · exact fail _ _ _

end Parser

theorem parse_not_exhausted (source : Text) : parse source ≠ .exhausted := by
  intro stuck
  apply (Parser.source_takes source source.length).1
  unfold parse parseRun at stuck
  cases out : (Parser.source (5 * source.length + 6) source.length source).out <;> rw [out] at stuck <;>
    first | rfl | cases stuck

theorem parse_takes {source : Text} {expr : PatternExpr} (parsed : parse source = .ok expr) :
    expr.WellFormed ∧ Passes source expr.tally [] := by
  unfold parse parseRun at parsed
  cases out : (Parser.source (5 * source.length + 6) source.length source).out with
  | ok result =>
    rw [out] at parsed
    cases parsed
    exact (Parser.source_takes source source.length).2 result.1 result.2 out
  | err error => rw [out] at parsed; cases parsed
  | fault => rw [out] at parsed; cases parsed
  | exhausted => rw [out] at parsed; cases parsed

theorem parse_wellFormed {source : Text} {expr : PatternExpr} (parsed : parse source = .ok expr) : expr.WellFormed :=
  (parse_takes parsed).1

theorem parse_passes {source : Text} {expr : PatternExpr} (parsed : parse source = .ok expr) : Passes source expr.tally [] :=
  (parse_takes parsed).2

end Audec.PatternLang
