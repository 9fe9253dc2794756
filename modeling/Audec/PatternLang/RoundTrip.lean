import Audec.PatternLang.Modifiers

open List

namespace Audec.PatternLang

open Machine FloatDebug FloatDecimal Traced Scanner.Stops Print

namespace Parser

open Scanner hiding pure bind

variable {lowest : Float32}

def startsElement (c : Char) : Bool := c == '~' || c == '[' || c == '<' || isIdentStart c

variable {c : Char} {text rest : Text} {list : List Step} {inner : PatternExpr}

theorem startsElement_not_space (starts : startsElement c = true) : isSpace c = false := by
  by_contra space
  simp only [isSpace, Bool.not_eq_false, Bool.or_eq_true, beq_iff_eq] at space
  rcases space with ((rfl | rfl) | rfl) | rfl <;> cases starts

theorem startsElement_not_closing (starts : startsElement c = true) : closesSteps (some c) = false := by
  by_contra closes
  simp only [closesSteps, Bool.not_eq_false, Bool.or_eq_true, beq_iff_eq] at closes
  rcases closes with ((rfl | rfl) | rfl) | rfl <;> cases starts

theorem printElement_starts (lowest : Float32) {element : Element} (wellFormed : element.WellFormed) :
    ∃ c more, printElement lowest element = c :: more ∧ startsElement c = true := by
  cases element with
  | rest => exact ⟨_, _, rfl, rfl⟩
  | name binding variant =>
    cases binding with
    | nil => exact absurd wellFormed id
    | cons c more =>
      have starts : startsElement c = true := by
        unfold startsElement
        rw [wellFormed.1, Bool.or_true]
      cases variant with
      | none => exact ⟨c, _, rfl, starts⟩
      | some variant => exact ⟨c, _, rfl, starts⟩
  | group steps => exact ⟨_, _, rfl, rfl⟩
  | alternate steps => exact ⟨_, _, rfl, rfl⟩

theorem printStep_eq (step : Step) :
    printStep lowest step = printElement lowest step.element ++ step.printModifiers lowest := by
  cases step
  rw [printStep]

theorem stepFloats_eq (step : Step) :
    stepFloats step = step.element.floats ++ (step.probability.toList ++ step.velocity.toList) := by
  cases step
  rw [stepFloats]

/-- All floats of a term are printed without an exponent. -/
def AllPlain (lowest : Float32) (floats : List Float32) : Prop := ∀ x ∈ floats, Plain lowest x

theorem allPlain_append {a b : List Float32} : AllPlain lowest (a ++ b) ↔ AllPlain lowest a ∧ AllPlain lowest b :=
  forall_mem_append

theorem allPlain_step {step : Step} : AllPlain lowest (stepFloats step) ↔
    AllPlain lowest step.element.floats ∧ (∀ x ∈ step.probability, Plain lowest x) ∧ ∀ x ∈ step.velocity, Plain lowest x := by
  rw [stepFloats_eq, allPlain_append, allPlain_append]
  simp only [AllPlain, Option.mem_toList]
  exact Iff.rfl

theorem step_starts (starts : startsElement c = true) (head : text.head? = some c) :
    Stops isSpace text ∧ closesSteps text.head? = false := by
  refine ⟨of_head head (startsElement_not_space starts), ?_⟩
  rw [head]
  exact startsElement_not_closing starts

theorem modifier_not_ident (follows : Follows afterElement text) :
    Stops isIdentRest text :=
  follows.rejects isIdentRest rfl

theorem nameElement_reads {binding : Text} (ident : IsIdent binding) (variant : Option U32)
    (follows : Follows afterElement rest) :
    Reads nameElement (printElement lowest (.name binding variant) ++ rest) (.name binding variant) rest := by
  cases variant with
  | none =>
    apply Reads.bind (ident_reads ident (modifier_not_ident follows))
    apply Reads.peek
    rw [if_neg (follows.head_ne (by decide))]
    exact Reads.pure _ rest
  | some variant =>
    obtain ⟨count, same, reads⟩ := count_reads variant rest follows.noDigit
    rw [printElement, append_assoc, cons_append]
    apply Reads.bind (ident_reads ident (cons rfl _))
    apply Reads.peek
    apply Reads.advance
    apply Reads.bind reads
    rw [same]
    exact Reads.pure _ rest

theorem stepWellFormed_iff (step : Step) : StepWellFormed step ↔ step.element.WellFormed ∧ step.Modified := by
  cases step
  rw [StepWellFormed]

/-- A printed step starts with its element, whatever comes after it. -/
theorem printStep_starts (lowest : Float32) {step : Step} (wellFormed : StepWellFormed step) (rest : Text) :
    ∃ c, (printStep lowest step ++ rest).head? = some c ∧ startsElement c = true := by
  obtain ⟨c, more, printed, starts⟩ := printElement_starts lowest ((stepWellFormed_iff step).mp wellFormed).1
  refine ⟨c, ?_, starts⟩
  rw [printStep_eq, printed]
  rfl

theorem printSteps_follows (lowest : Float32) (index : Nat) (steps : List Step) (follows : Follows afterSteps rest) :
    Follows afterStep (printSteps lowest (index + 1) steps ++ rest) := by
  cases steps with
  | nil => exact follows.steps_to_step
  | cons step more =>
    rw [printSteps, if_pos (Nat.succ_pos index)]
    exact Follows.cons mem_cons_self _

theorem separator_skipped (index : Nat) (starts : Stops isSpace text) :
    Reads skipSpace ((if 0 < index then [' '] else []) ++ text) () text := by
  split
  · exact skipSpace_space starts
  · exact skipSpace_reads starts

theorem stepsNil_reads (follows : Follows afterSteps rest) (fuel : Nat) :
    Reads (steps fuel) rest [] rest := by
  cases fuel with
  | zero => exact Reads.exhausted _ _ _
  | succ fuel =>
    rw [steps]
    apply Reads.bind (skipSpace_reads (follows.rejects isSpace rfl))
    apply Reads.peek
    have closes : closesSteps rest.head? = true := by
      cases head : rest.head? with
      | none => rfl
      | some c =>
        have inside := follows c head
        simp only [afterSteps, mem_cons, not_mem_nil, or_false] at inside
        rcases inside with rfl | rfl | rfl | rfl <;> rfl
    rw [if_pos closes]
    exact Reads.pure [] rest

theorem stepsCons_reads (index : Nat) {first : Step} {more : List Step} {middle : Text}
    (starts : ∃ c, text.head? = some c ∧ startsElement c = true)
    (head : ∀ fuel, Reads (step fuel) text first middle) (tail : ∀ fuel, Reads (steps fuel) middle more rest)
    (fuel : Nat) : Reads (steps fuel) ((if 0 < index then [' '] else []) ++ text) (first :: more) rest := by
  obtain ⟨c, atHead, starts⟩ := starts
  obtain ⟨notSpace, notClosing⟩ := step_starts starts atHead
  cases fuel with
  | zero => exact Reads.exhausted _ _ _
  | succ fuel =>
    rw [steps]
    apply Reads.bind (separator_skipped index notSpace)
    apply Reads.peek
    rw [notClosing, if_neg Bool.false_ne_true]
    apply Reads.bind (head fuel)
    apply Reads.bind (tail fuel)
    exact Reads.pure _ rest

theorem bracketed_reads (nonempty : list ≠ []) (close : Char) (message : String)
    (wrap : List Step → Element) {fuel : Nat} (inner : Reads (steps fuel) text list (close :: rest))
    (c : Char) : Reads (do
      advance
      let steps ← steps fuel
      expect close
      if steps.isEmpty then error message else pure (wrap steps)) (c :: text) (wrap list) rest := by
  apply Reads.advance
  apply Reads.bind inner
  apply Reads.bind (expect_reads close rest)
  rw [if_neg (by rwa [List.isEmpty_iff])]
  exact Reads.pure _ rest

theorem element_of_name (head : text.head? = some c) (starts : isIdentStart c = true) (fuel : Nat)
    {element : Element} (named : Reads nameElement text element rest) :
    Reads (Parser.element (fuel + 1)) text element rest := by
  have element : startsElement c = true := by
    unfold startsElement
    rw [starts, Bool.or_true]
  have notSpace : Stops isSpace text := of_head head (startsElement_not_space element)
  rw [Parser.element]
  apply Reads.bind (skipSpace_reads notSpace)
  apply Reads.peek
  rw [head]
  split
  · rename_i same
    cases same
    cases starts
  · rename_i same
    cases same
    cases starts
  · rename_i same
    cases same
    cases starts
  · rw [Option.any_some, if_pos starts]
    exact named

theorem element_of_group {list : List Step} (nonempty : list ≠ []) (fuel : Nat) {rest : Text}
    (inner : Reads (steps fuel) (printSteps lowest 0 list ++ (']' :: rest)) list (']' :: rest)) :
    Reads (Parser.element (fuel + 1)) (printElement lowest (.group list) ++ rest) (.group list) rest := by
  rw [Parser.element, printElement, cons_append, append_assoc]
  apply Reads.bind (skipSpace_reads (cons rfl _))
  apply Reads.peek
  exact bracketed_reads nonempty ']' "empty group" .group inner '['

theorem element_of_alternate (nonempty : list ≠ []) (fuel : Nat)
    (inner : Reads (steps fuel) (printSteps lowest 0 list ++ ('>' :: rest)) list ('>' :: rest)) :
    Reads (Parser.element (fuel + 1)) (printElement lowest (.alternate list) ++ rest) (.alternate list) rest := by
  rw [Parser.element, printElement, cons_append, append_assoc]
  apply Reads.bind (skipSpace_reads (cons rfl _))
  apply Reads.peek
  exact bracketed_reads nonempty '>' "empty alternation" .alternate inner '<'

theorem name_head (lowest : Float32) {binding : Text} (ident : IsIdent binding) (variant : Option U32) (rest : Text) :
    ∃ c, (printElement lowest (.name binding variant) ++ rest).head? = some c ∧ isIdentStart c = true := by
  cases binding with
  | nil => exact absurd ident id
  | cons c more =>
    refine ⟨c, ?_, ident.1⟩
    cases variant <;> rfl

theorem step_of_element {target : Step} (modified : target.Modified)
    (probability : ∀ x ∈ target.probability, Plain lowest x) (velocity : ∀ x ∈ target.velocity, Plain lowest x)
    (follows : Follows afterStep rest) (fuel : Nat)
    (inner : Reads (Parser.element fuel) (printElement lowest target.element ++ (target.printModifiers lowest ++ rest))
      target.element (target.printModifiers lowest ++ rest)) :
    Reads (Parser.step (fuel + 1)) (printStep lowest target ++ rest) target rest := by
  rw [Parser.step, printStep_eq, append_assoc]
  apply Reads.bind inner
  apply Reads.rest
  exact modifiers_read modified probability velocity follows _

mutual

theorem element_reads : ∀ (element : Element), element.WellFormed → AllPlain lowest element.floats →
    ∀ (fuel : Nat) (rest : Text), Follows afterElement rest →
      Reads (Parser.element fuel) (printElement lowest element ++ rest) element rest
  | _, _, _, 0, _, _ => Reads.exhausted _ _ _
  | .rest, _, _, fuel + 1, rest, _ => by
    rw [Parser.element]
    apply Reads.bind (skipSpace_reads (cons rfl _))
    apply Reads.peek
    apply Reads.advance
    exact Reads.pure Element.rest rest
  | .name binding variant, ident, _, fuel + 1, rest, follows => by
    obtain ⟨c, head, starts⟩ := name_head lowest ident variant rest
    exact element_of_name head starts fuel (nameElement_reads ident variant follows)
  | .group list, ⟨nonempty, list'⟩, plain, fuel + 1, rest, _ =>
    element_of_group nonempty fuel (steps_read list list' plain 0 fuel (']' :: rest) (Follows.cons (by decide) rest))
  | .alternate list, ⟨nonempty, list'⟩, plain, fuel + 1, rest, _ =>
    element_of_alternate nonempty fuel (steps_read list list' plain 0 fuel ('>' :: rest) (Follows.cons (by decide) rest))

theorem steps_read : ∀ (list : List (StepOf Element)), StepsWellFormed list → AllPlain lowest (stepsFloats list) →
    ∀ (index fuel : Nat) (rest : Text), Follows afterSteps rest →
      Reads (Parser.steps fuel) (printSteps lowest index list ++ rest) list rest
  | [], _, _, _, fuel, _, follows => stepsNil_reads follows fuel
  | step :: more, ⟨step', more'⟩, plain, index, fuel, rest, follows => by
    obtain ⟨first, others⟩ := allPlain_append.mp plain
    have separated := printSteps_follows lowest index more follows
    rw [printSteps, append_assoc, append_assoc]
    exact stepsCons_reads index (printStep_starts lowest step' _) (fun fuel => step_reads step step' first fuel _ separated)
      (fun fuel => steps_read more more' others (index + 1) fuel rest follows) fuel

theorem step_reads : ∀ (step : StepOf Element), StepWellFormed step → AllPlain lowest (stepFloats step) →
    ∀ (fuel : Nat) (rest : Text), Follows afterStep rest →
      Reads (Parser.step fuel) (printStep lowest step ++ rest) step rest
  | _, _, _, 0, _, _ => Reads.exhausted _ _ _
  | ⟨element, width, replicate, repeats, probability, velocity⟩, wellFormed, plain, fuel + 1, rest, follows => by
    obtain ⟨element', modified⟩ := (stepWellFormed_iff _).mp wellFormed
    obtain ⟨floats, probabilities, velocities⟩ := allPlain_step.mp plain
    have after := follows.step_to_element
    exact step_of_element modified probabilities velocities follows fuel
      (element_reads element element' floats fuel _ (printModifiers_follows lowest _ after))

end

theorem identText_none (starts : Stops isIdentStart text) : identText text = none := by
  cases text with
  | nil => rfl
  | cons c more =>
    rw [identText, starts c rfl]
    rfl

theorem callText_none {text : Text} (notCall : ∀ word more, identText text ≠ some (word, '(' :: more)) :
    callText text = none := by
  unfold callText
  split
  · exact absurd ‹_› (notCall _ _)
  · rfl

theorem identText_name {binding : Text} (ident : IsIdent binding) (variant : Option U32) {rest : Text}
    (follows : Follows afterElement rest) (word more : Text) :
    identText (printElement lowest (.name binding variant) ++ rest) ≠ some (word, '(' :: more) := by
  intro called
  cases variant with
  | none =>
    rw [printElement, identText_append ident (modifier_not_ident follows)] at called
    cases called
    exact absurd (follows '(' rfl) (by decide)
  | some variant =>
    rw [printElement, append_assoc, cons_append, identText_append ident (cons rfl _)] at called
    cases called

theorem callText_steps (wellFormed : StepsWellFormed list) (nonempty : list ≠ [])
    (follows : Follows afterSteps rest) : callText (printSteps lowest 0 list ++ rest) = none := by
  apply callText_none
  intro word more called
  cases list with
  | nil => exact nonempty rfl
  | cons step others =>
    have element' := ((stepWellFormed_iff step).mp wellFormed.1).1
    have separated := (printSteps_follows lowest 0 others follows).step_to_element
    have after := printModifiers_follows lowest step separated
    rw [printSteps, if_neg (Nat.lt_irrefl 0), nil_append, append_assoc, printStep_eq, append_assoc] at called
    cases shape : step.element with
    | rest =>
      rw [shape, printElement, cons_append, identText_none (cons rfl _)] at called
      cases called
    | name binding variant =>
      rw [shape] at called element'
      exact identText_name element' variant after word more called
    | group list =>
      rw [shape, printElement, cons_append, identText_none (cons rfl _)] at called
      cases called
    | alternate list =>
      rw [shape, printElement, cons_append, identText_none (cons rfl _)] at called
      cases called

theorem callWord_absent (notCall : callText text = none) : Reads callWord text none text := by
  intro total
  unfold callWord
  rw [notCall]
  exact Run.Reaches.pure (none, text)

theorem seq_reads (wellFormed : StepsWellFormed list) (nonempty : list ≠ [])
    (plain : AllPlain lowest (stepsFloats list)) (fuel : Nat) (follows : Follows afterSteps rest) :
    Reads (expr fuel) (printSteps lowest 0 list ++ rest) (.seq list) rest := by
  cases fuel with
  | zero => exact Reads.exhausted _ _ _
  | succ fuel =>
    have absent : Reads (tryCall fuel) (printSteps lowest 0 list ++ rest) none (printSteps lowest 0 list ++ rest) := by
      cases fuel with
      | zero => exact Reads.exhausted _ _ _
      | succ fuel =>
        rw [tryCall]
        apply Reads.bind (callWord_absent (callText_steps wellFormed nonempty follows))
        exact Reads.pure none _
    rw [expr]
    apply Reads.bind absent
    apply Reads.bind (steps_read list wellFormed plain 0 fuel rest follows)
    rw [if_neg (by rwa [List.isEmpty_iff])]
    exact Reads.pure _ rest

section

variable (word : Combinator)
include word

theorem ident_word : IsIdent word.word := by
  cases word <;> exact ⟨rfl, all_eq_true.mp rfl⟩

theorem callText_word (more : Text) :
    callText (word.word ++ '(' :: more) = some (word, '(' :: more) := by
  unfold callText
  rw [identText_append (ident_word word) (cons rfl _)]
  cases word <;> rfl

theorem callWord_reads (more : Text) :
    Reads callWord (word.word ++ '(' :: more) (some word) ('(' :: more) := by
  intro total
  unfold callWord
  rw [callText_word]
  exact Run.Reaches.pure (some word, '(' :: more)

theorem call_reads {body : Text} {call : PatternExpr}
    (starts : Stops isSpace body) (inner : ∀ fuel, Reads (callBody fuel word) body call (')' :: rest))
    (fuel : Nat) : Reads (expr fuel) (word.word ++ '(' :: body) call rest := by
  cases fuel with
  | zero => exact Reads.exhausted _ _ _
  | succ fuel =>
    have present : Reads (tryCall fuel) (word.word ++ '(' :: body) (some call) rest := by
      cases fuel with
      | zero => exact Reads.exhausted _ _ _
      | succ fuel =>
        rw [tryCall]
        apply Reads.bind (callWord_reads word body)
        apply Reads.bind (expect_reads '(' body)
        apply Reads.bind (skipSpace_reads starts)
        apply Reads.bind (inner fuel)
        apply Reads.bind (skipSpace_reads (cons rfl _))
        apply Reads.bind (expect_reads ')' rest)
        exact Reads.pure (some call) rest
    rw [expr]
    apply Reads.bind present
    exact Reads.pure call rest

end

theorem digit_not_space (digit : c.isDigit = true) : isSpace c = false := by
  by_contra space
  simp only [isSpace, Bool.not_eq_false, Bool.or_eq_true, beq_iff_eq] at space
  rcases space with ((rfl | rfl) | rfl) | rfl <;> cases digit

theorem startsWithDigit_not_space (starts : startsWithDigit text = true) :
    Stops isSpace text := by
  intro c head
  unfold startsWithDigit at starts
  rw [head] at starts
  exact digit_not_space starts

theorem toDigits_starts (n : Nat) (rest : Text) : startsWithDigit (Nat.toDigits 10 n ++ rest) = true := by
  apply digit_starts
  cases digits : Nat.toDigits 10 n with
  | nil => exact absurd digits (toDigits_ne_nil n)
  | cons d more => exact toDigits_isDigit n d (by rw [digits]; exact mem_cons_self)

theorem natural_starts (n : U32) (rest : Text) : startsWithDigit (natural n ++ rest) = true :=
  toDigits_starts n.val rest

theorem integer_not_space (n : I32) (rest : Text) : Stops isSpace (Print.integer n ++ rest) := by
  unfold Print.integer
  split
  · rintro _ ⟨⟩
    rfl
  · intro c head
    exact digit_not_space (digits_head n.val.natAbs rest c head)

theorem debug_not_space (small : lowest ≤ 0.5) {x : Float32} (readable : Readable x) (rest : Text) :
    Stops isSpace (debug lowest x ++ rest) := by
  by_cases plain : Plain lowest x
  · exact startsWithDigit_not_space (debug_starts readable plain rest)
  · rcases number_not_plain small readable plain rest with ⟨infinite, -⟩ | ⟨_, _, -, starts, -⟩
    · rw [infinite]
      rintro _ ⟨⟩
      rfl
    · exact startsWithDigit_not_space starts

theorem printElement_not_space {element : Element} (wellFormed : element.WellFormed) (rest : Text) :
    Stops isSpace (printElement lowest element ++ rest) := by
  obtain ⟨c, more, printed, starts⟩ := printElement_starts lowest wellFormed
  rw [printed]
  rintro _ ⟨⟩
  exact startsElement_not_space starts

theorem printExpr_starts {expr : PatternExpr} (wellFormed : expr.WellFormed) (rest : Text) :
    Stops isSpace (printExpr lowest expr ++ rest) := by
  cases expr with
  | seq list =>
    cases list with
    | nil => exact absurd rfl wellFormed.1
    | cons step more =>
      obtain ⟨c, head, starts⟩ := printStep_starts lowest wellFormed.2.1 (printSteps lowest 1 more ++ rest)
      rw [printExpr_seq, printSteps, if_neg (Nat.lt_irrefl 0), nil_append, append_assoc]
      exact of_head head (startsElement_not_space starts)
  | every period offset transform inner =>
    rw [printExpr]
    split <;> exact cons rfl _
  | euclid hits slots rotation element =>
    rw [printExpr]
    split <;> exact cons rfl _
  | _ =>
    rw [printExpr]
    exact cons rfl _

theorem wrapped_reads {inner : PatternExpr} (wellFormed : inner.WellFormed) (wrap : PatternExpr → PatternExpr)
    {fuel : Nat} {rest : Text} (reads : Reads (expr fuel) (printExpr lowest inner ++ (')' :: rest)) inner (')' :: rest)) :
    Reads (do
      requireComma
      let inner ← expr fuel
      pure (wrap inner)) (separator ++ (printExpr lowest inner ++ (')' :: rest))) (wrap inner) (')' :: rest) := by
  apply Reads.bind (requireComma_reads (printExpr_starts wellFormed _))
  apply Reads.bind reads
  exact Reads.pure _ _

theorem separator_noDigit (text : Text) : Stops Char.isDigit (separator ++ text) := cons rfl _

theorem separator_noPoint (text : Text) : (separator ++ text).head? ≠ some '.' := by
  rintro ⟨⟩

theorem close_noDigit (text : Text) : Stops Char.isDigit (')' :: text) := cons rfl _

theorem gain_transform_reads {x : Float32} (readable : Readable x) (plain : Plain lowest x) (rest : Text)
    (wrap : Float32 → PatternTransform) : Reads (do
      let linear ← number
      pure (wrap linear)) (debug lowest x ++ (')' :: rest)) (wrap x) (')' :: rest) := by
  apply Reads.bind (number_reads readable plain (close_noDigit rest) (by rintro ⟨⟩))
  exact Reads.pure _ _

theorem transform_of_call {word : Text} (ident : IsIdent word) {argument rest : Text} {target : PatternTransform}
    (starts : Stops isSpace (argument ++ (')' :: rest)))
    (inner : Reads (transformCall word) (argument ++ (')' :: rest)) target (')' :: rest)) :
    Reads transform (word ++ '(' :: (argument ++ (')' :: rest))) target rest := by
  unfold transform
  apply Reads.bind (ident_reads ident (cons rfl _))
  apply Reads.bind (expect_reads '(' _)
  apply Reads.bind (skipSpace_reads starts)
  apply Reads.bind inner
  apply Reads.bind (skipSpace_reads (cons rfl _))
  apply Reads.bind (expect_reads ')' rest)
  exact Reads.pure target rest

theorem transform_reads (small : lowest ≤ 0.5) {target : PatternTransform} (wellFormed : target.WellFormed)
    (plain : AllPlain lowest target.floats) (rest : Text) : Reads transform (target.print lowest ++ rest) target rest := by
  cases target with
  | rotate steps =>
    obtain ⟨m, same, reads⟩ := signed_reads steps (close_noDigit rest)
    have shape : PatternTransform.print lowest (.rotate steps) ++ rest =
        Combinator.rot.word ++ '(' :: (Print.integer steps ++ (')' :: rest)) := by
      rw [PatternTransform.print, append_assoc, append_assoc]
      rfl
    rw [shape]
    apply transform_of_call (ident_word .rot) (integer_not_space steps _)
    unfold transformCall
    rw [if_pos (show Combinator.rot.word = ['r', 'o', 't'] from rfl)]
    apply Reads.bind reads
    rw [same]
    exact Reads.pure _ _
  | gain linear =>
    have readable := wellFormed linear mem_cons_self
    have shape : PatternTransform.print lowest (.gain linear) ++ rest =
        Combinator.gain.word ++ '(' :: (debug lowest linear ++ (')' :: rest)) := by
      rw [PatternTransform.print, append_assoc, append_assoc]
      rfl
    rw [shape]
    apply transform_of_call (ident_word .gain) (debug_not_space small readable _)
    unfold transformCall
    rw [if_neg (by decide), if_pos (show Combinator.gain.word = ['g', 'a', 'i', 'n'] from rfl)]
    exact gain_transform_reads readable (plain linear mem_cons_self) rest .gain
  | degrade probability =>
    have readable := wellFormed probability mem_cons_self
    have shape : PatternTransform.print lowest (.degrade probability) ++ rest =
        Combinator.degrade.word ++ '(' :: (debug lowest probability ++ (')' :: rest)) := by
      rw [PatternTransform.print, append_assoc, append_assoc]
      rfl
    rw [shape]
    apply transform_of_call (ident_word .degrade) (debug_not_space small readable _)
    unfold transformCall
    rw [if_neg (by decide), if_neg (by decide), if_pos (show Combinator.degrade.word = ['d', 'e', 'g', 'r', 'a', 'd', 'e'] from rfl)]
    exact gain_transform_reads readable (plain probability mem_cons_self) rest .degrade

theorem everyOffset_reads (offset : U32) (noDigit : startsWithDigit text = false)
    (noSpace : Stops isSpace text) :
    Reads everyOffset ((if offset = 0 then [] else natural offset ++ separator) ++ text) offset text := by
  split
  · rename_i zero
    have absent : Reads peekNumber text false text := by
      apply Reads.rest
      rw [noDigit]
      exact Reads.pure false text
    apply Reads.bind absent
    rw [zero]
    exact Reads.pure 0 text
  · rw [append_assoc]
    have given : Reads peekNumber (natural offset ++ (separator ++ text)) true
        (natural offset ++ (separator ++ text)) := by
      apply Reads.rest
      rw [natural_starts]
      exact Reads.pure true _
    apply Reads.bind given
    apply Reads.bind (natural_reads offset (separator_noDigit text))
    apply Reads.bind (requireComma_reads noSpace)
    exact Reads.pure offset text

theorem lower_not_digit (lower : c.isLower = true) : c.isDigit = false := by
  unfold Char.isLower at lower
  unfold Char.isDigit
  simp only [Bool.and_eq_true, decide_eq_true_eq, Bool.and_eq_false_iff, decide_eq_false_iff_not, ge_iff_le,
    UInt32.le_iff_toNat_le] at *
  have : 'a'.val.toNat = 97 := rfl
  have : '9'.val.toNat = 57 := rfl
  omega

theorem startsElement_not_digit (starts : startsElement c = true) : c.isDigit = false := by
  simp only [startsElement, Bool.or_eq_true, beq_iff_eq] at starts
  rcases starts with ((rfl | rfl) | rfl) | lower
  · rfl
  · rfl
  · rfl
  · exact lower_not_digit lower

variable {target : Element}

theorem printElement_unsigned (wellFormed : target.WellFormed) (rest : Text) :
    Reads peekSignedInteger (printElement lowest target ++ rest) false (printElement lowest target ++ rest) := by
  obtain ⟨c, more, printed, starts⟩ := printElement_starts lowest wellFormed
  rw [printed, cons_append]
  apply Reads.rest
  split
  · rename_i same
    cases same
    cases starts
  · have noDigit : startsWithDigit (c :: (more ++ rest)) = false := startsElement_not_digit starts
    rw [noDigit]
    exact Reads.pure false _

theorem euclidElement_reads (wellFormed : target.WellFormed) (rotation : I32) {rest : Text}
    (inner : ∀ fuel, Reads (element fuel) (printElement lowest target ++ (')' :: rest)) target (')' :: rest)) (fuel : Nat) :
    Reads (euclidArguments fuel rotation none) (separator ++ (printElement lowest target ++ (')' :: rest)))
      (rotation, some target) (')' :: rest) := by
  cases fuel with
  | zero => exact Reads.exhausted _ _ _
  | succ fuel =>
    rw [euclidArguments]
    apply Reads.bind (comma_reads (printElement_not_space wellFormed _))
    rw [if_pos rfl]
    apply Reads.bind (printElement_unsigned wellFormed _)
    rw [if_neg (by rintro ⟨-, -, impossible⟩; cases impossible)]
    apply Reads.bind (inner fuel)
    cases fuel with
    | zero => exact Reads.exhausted _ _ _
    | succ fuel =>
      rw [euclidArguments]
      apply Reads.bind (comma_absent (cons rfl _) (by rintro ⟨⟩))
      rw [if_neg Bool.false_ne_true]
      exact Reads.pure _ _

theorem integer_signed (n : I32) (rest : Text) :
    Reads peekSignedInteger (Print.integer n ++ rest) true (Print.integer n ++ rest) := by
  have digits := toDigits_starts n.val.natAbs rest
  unfold Print.integer
  split
  · rw [append_assoc]
    apply Reads.rest
    change Reads (Pure.pure (startsWithDigit (Nat.toDigits 10 n.val.natAbs ++ rest))) _ _ _
    rw [digits]
    exact Reads.pure true _
  · rw [nil_append]
    apply Reads.rest
    split
    · rename_i minus
      rw [minus] at digits
      cases digits
    · rw [digits]
      exact Reads.pure true _

theorem euclidArguments_read (wellFormed : target.WellFormed) (rotation : I32) {rest : Text}
    (inner : ∀ fuel, Reads (element fuel) (printElement lowest target ++ (')' :: rest)) target (')' :: rest)) (fuel : Nat) :
    Reads (euclidArguments fuel I32.zero none) ((if rotation = I32.zero then [] else separator ++ Print.integer rotation) ++
      (separator ++ (printElement lowest target ++ (')' :: rest)))) (rotation, some target) (')' :: rest) := by
  split
  · rename_i zero
    rw [zero]
    exact euclidElement_reads wellFormed I32.zero inner fuel
  · obtain ⟨m, same, reads⟩ := signed_reads rotation (separator_noDigit (printElement lowest target ++ (')' :: rest)))
    rw [append_assoc]
    cases fuel with
    | zero => exact Reads.exhausted _ _ _
    | succ fuel =>
      rw [euclidArguments]
      apply Reads.bind (comma_reads (integer_not_space rotation _))
      rw [if_pos rfl]
      apply Reads.bind (integer_signed rotation _)
      rw [if_pos ⟨rfl, rfl, rfl⟩]
      apply Reads.bind reads
      rw [same]
      exact euclidElement_reads wellFormed rotation inner fuel

theorem euclid_print (hits slots : U32) (rotation : I32) (target : Element) (rest : Text) :
    printExpr lowest (.euclid hits slots rotation target) ++ rest = Combinator.e.word ++ '(' :: (natural hits ++
      (separator ++ (Print.natural slots ++ ((if rotation = I32.zero then [] else separator ++ Print.integer rotation) ++
        (separator ++ (printElement lowest target ++ (')' :: rest))))))) := by
  rw [printExpr]
  split <;> simp only [append_assoc, cons_append, nil_append] <;> rfl

theorem every_print (period offset : U32) (transform : PatternTransform) (inner : PatternExpr) (rest : Text) :
    printExpr lowest (.every period offset transform inner) ++ rest = Combinator.every.word ++ '(' :: (natural period ++
      (separator ++ ((if offset = 0 then [] else natural offset ++ separator) ++
        (transform.print lowest ++ (separator ++ (printExpr lowest inner ++ (')' :: rest))))))) := by
  rw [printExpr]
  split <;> simp only [append_assoc, cons_append, nil_append] <;> rfl

theorem transform_starts (lowest : Float32) (transform : PatternTransform) (rest : Text) :
    startsWithDigit (transform.print lowest ++ rest) = false ∧ Stops isSpace (transform.print lowest ++ rest) := by
  cases transform <;> rw [PatternTransform.print] <;> exact ⟨rfl, cons rfl _⟩

theorem everyOffset_space (offset : U32) (noSpace : Stops isSpace text) :
    Stops isSpace ((if offset = 0 then [] else natural offset ++ separator) ++ text) := by
  split
  · exact noSpace
  · rw [append_assoc]
    exact startsWithDigit_not_space (natural_starts offset _)

theorem rotation_separated (rotation : I32) (text : Text) :
    Stops Char.isDigit ((if rotation = I32.zero then [] else separator ++ Print.integer rotation) ++ (separator ++ text)) ∧
      Stops isSpace ((if rotation = I32.zero then [] else separator ++ Print.integer rotation) ++ (separator ++ text)) := by
  split <;> exact ⟨cons rfl _, cons rfl _⟩

theorem close_follows (rest : Text) : Follows afterSteps (')' :: rest) := Follows.cons (by decide) rest

/-- The term is read back before the parenthesis that closes a call. -/
def ReadsInside (lowest : Float32) (target : PatternExpr) (rest : Text) : Prop :=
  ∀ fuel, Reads (expr fuel) (printExpr lowest target ++ (')' :: rest)) target (')' :: rest)

theorem readsInside {target : PatternExpr} (reads : ∀ rest : Text, Follows afterSteps rest →
    ∀ fuel, Reads (expr fuel) (printExpr lowest target ++ rest) target rest) (rest : Text) : ReadsInside lowest target rest :=
  reads (')' :: rest) (close_follows rest)

theorem argument_call_reads (word : Combinator) (argument rest : Text) (inner target : PatternExpr)
    (starts : Stops isSpace (argument ++ (separator ++ (printExpr lowest inner ++ (')' :: rest)))))
    (printed : printExpr lowest target ++ rest =
      word.word ++ '(' :: (argument ++ (separator ++ (printExpr lowest inner ++ (')' :: rest)))))
    (body : ∀ fuel, Reads (callBody (fuel + 1) word) (argument ++ (separator ++ (printExpr lowest inner ++ (')' :: rest))))
      target (')' :: rest)) (fuel : Nat) : Reads (expr fuel) (printExpr lowest target ++ rest) target rest := by
  rw [printed]
  apply call_reads word starts
  intro fuel
  cases fuel with
  | zero => exact Reads.exhausted _ _ _
  | succ fuel => exact body fuel

theorem rotate_reads (steps : I32) (inner' : inner.WellFormed)
    (reads : ReadsInside lowest inner rest) (fuel : Nat) :
    Reads (expr fuel) (printExpr lowest (.rotate steps inner) ++ rest) (.rotate steps inner) rest := by
  obtain ⟨m, same, signed⟩ := signed_reads steps (separator_noDigit (printExpr lowest inner ++ (')' :: rest)))
  apply argument_call_reads .rot (Print.integer steps) rest inner (.rotate steps inner) (integer_not_space steps _)
  · rw [printExpr]
    simp only [append_assoc, cons_append, nil_append]
    rfl
  · intro fuel
    apply Reads.bind signed
    rw [same]
    exact wrapped_reads inner' (.rotate steps) (reads fuel)

section

variable (factor : U32) (inner' : inner.WellFormed) (reads : ReadsInside lowest inner rest) (fuel : Nat)
include factor inner' reads fuel

theorem fast_reads :
    Reads (expr fuel) (printExpr lowest (.fast factor inner) ++ rest) (.fast factor inner) rest := by
  apply argument_call_reads .fast (natural factor) rest inner (.fast factor inner) (startsWithDigit_not_space (natural_starts factor _))
  · rw [printExpr]
    simp only [append_assoc, cons_append, nil_append]
    rfl
  · intro fuel
    apply Reads.bind (natural_reads factor (separator_noDigit _))
    exact wrapped_reads inner' (.fast factor) (reads fuel)

theorem slow_reads :
    Reads (expr fuel) (printExpr lowest (.slow factor inner) ++ rest) (.slow factor inner) rest := by
  apply argument_call_reads .slow (natural factor) rest inner (.slow factor inner) (startsWithDigit_not_space (natural_starts factor _))
  · rw [printExpr]
    simp only [append_assoc, cons_append, nil_append]
    rfl
  · intro fuel
    apply Reads.bind (natural_reads factor (separator_noDigit _))
    exact wrapped_reads inner' (.slow factor) (reads fuel)

end

section

variable (small : lowest ≤ 0.5)
include small

section

variable {number : Float32} (readable : Readable number) (plain : Plain lowest number) (inner' : inner.WellFormed)
  (reads : ReadsInside lowest inner rest) (fuel : Nat)
include readable plain inner' reads

theorem swing_reads : Reads (expr fuel) (printExpr lowest (.swing number inner) ++ rest) (.swing number inner) rest := by
  apply argument_call_reads .swing (debug lowest number) rest inner (.swing number inner) (debug_not_space small readable _)
  · rw [printExpr]
    simp only [append_assoc, cons_append, nil_append]
    rfl
  · intro fuel
    apply Reads.bind (number_reads readable plain (separator_noDigit _) (separator_noPoint _))
    exact wrapped_reads inner' (.swing number) (reads fuel)

theorem gain_reads : Reads (expr fuel) (printExpr lowest (.gain number inner) ++ rest) (.gain number inner) rest := by
  apply argument_call_reads .gain (debug lowest number) rest inner (.gain number inner) (debug_not_space small readable _)
  · rw [printExpr]
    simp only [append_assoc, cons_append, nil_append]
    rfl
  · intro fuel
    apply Reads.bind (number_reads readable plain (separator_noDigit _) (separator_noPoint _))
    exact wrapped_reads inner' (.gain number) (reads fuel)

theorem degrade_reads : Reads (expr fuel) (printExpr lowest (.degrade number inner) ++ rest) (.degrade number inner) rest := by
  apply argument_call_reads .degrade (debug lowest number) rest inner (.degrade number inner) (debug_not_space small readable _)
  · rw [printExpr]
    simp only [append_assoc, cons_append, nil_append]
    rfl
  · intro fuel
    apply Reads.bind (number_reads readable plain (separator_noDigit _) (separator_noPoint _))
    exact wrapped_reads inner' (.degrade number) (reads fuel)

end

theorem every_reads (period offset : U32) {transform : PatternTransform}
    (wellFormed : transform.WellFormed) (plain : AllPlain lowest transform.floats)
    (inner' : inner.WellFormed) (reads : ReadsInside lowest inner rest) (fuel : Nat) :
    Reads (expr fuel) (printExpr lowest (.every period offset transform inner) ++ rest)
      (.every period offset transform inner) rest := by
  obtain ⟨noDigit, noSpace⟩ := transform_starts lowest transform (separator ++ (printExpr lowest inner ++ (')' :: rest)))
  have offsetSpace := everyOffset_space offset noSpace
  rw [every_print]
  apply call_reads .every (startsWithDigit_not_space (natural_starts period _))
  intro fuel
  cases fuel with
  | zero => exact Reads.exhausted _ _ _
  | succ fuel =>
    apply Reads.bind (natural_reads period (separator_noDigit _))
    apply Reads.bind (requireComma_reads offsetSpace)
    apply Reads.bind (everyOffset_reads offset noDigit noSpace)
    apply Reads.bind (transform_reads small wellFormed plain _)
    exact wrapped_reads inner' (.every period offset transform) (reads fuel)

end

theorem euclid_reads (hits slots : U32) (rotation : I32) (wellFormed : target.WellFormed) {rest : Text}
    (reads : ∀ fuel, Reads (element fuel) (printElement lowest target ++ (')' :: rest)) target (')' :: rest)) (fuel : Nat) :
    Reads (expr fuel) (printExpr lowest (.euclid hits slots rotation target) ++ rest)
      (.euclid hits slots rotation target) rest := by
  have arguments := euclidArguments_read wellFormed rotation reads
  obtain ⟨noDigit, noSpace⟩ := rotation_separated rotation (printElement lowest target ++ (')' :: rest))
  have slotsSpace := startsWithDigit_not_space (natural_starts slots ((if rotation = I32.zero then [] else
    separator ++ Print.integer rotation) ++ (separator ++ (printElement lowest target ++ (')' :: rest)))))
  rw [euclid_print]
  apply call_reads .e (startsWithDigit_not_space (natural_starts hits _))
  intro fuel
  cases fuel with
  | zero => exact Reads.exhausted _ _ _
  | succ fuel =>
    apply Reads.bind (natural_reads hits (separator_noDigit _))
    apply Reads.bind (requireComma_reads slotsSpace)
    apply Reads.bind (natural_reads slots noDigit)
    apply Reads.bind (skipSpace_reads noSpace)
    apply Reads.bind (arguments fuel)
    exact Reads.pure _ _

theorem membersNil_read (rest : Text) (fuel : Nat) : Reads (stackMembers fuel) (')' :: rest) [] (')' :: rest) := by
  cases fuel with
  | zero => exact Reads.exhausted _ _ _
  | succ fuel =>
    rw [stackMembers]
    apply Reads.bind (comma_absent (cons rfl _) (by rintro ⟨⟩))
    rw [if_neg Bool.false_ne_true]
    exact Reads.pure _ _

theorem printMembers_follows (lowest : Float32) (index : Nat) (members : List PatternExpr) (rest : Text) :
    Follows afterSteps (printMembers lowest (index + 1) members ++ (')' :: rest)) := by
  cases members with
  | nil => exact close_follows rest
  | cons member more =>
    rw [printMembers, if_pos (Nat.succ_pos index)]
    exact Follows.cons (by decide) _

theorem membersCons_read (index : Nat) {member : PatternExpr} (member' : member.WellFormed) {more : List PatternExpr}
    {rest : Text} (head : ∀ fuel, Reads (expr fuel) (printExpr lowest member ++ (printMembers lowest (index + 2) more ++
      (')' :: rest))) member (printMembers lowest (index + 2) more ++ (')' :: rest)))
    (tail : ∀ fuel, Reads (stackMembers fuel) (printMembers lowest (index + 2) more ++ (')' :: rest)) more (')' :: rest))
    (fuel : Nat) : Reads (stackMembers fuel) (printMembers lowest (index + 1) (member :: more) ++ (')' :: rest))
      (member :: more) (')' :: rest) := by
  cases fuel with
  | zero => exact Reads.exhausted _ _ _
  | succ fuel =>
    rw [stackMembers, printMembers, if_pos (Nat.succ_pos index), append_assoc, append_assoc]
    apply Reads.bind (comma_reads (printExpr_starts member' _))
    rw [if_pos rfl]
    apply Reads.bind (head fuel)
    apply Reads.bind (tail fuel)
    exact Reads.pure _ _

theorem stack_print (first : PatternExpr) (more : List PatternExpr) (rest : Text) :
    printExpr lowest (.stack (first :: more)) ++ rest = Combinator.stack.word ++ '(' ::
      (printExpr lowest first ++ (printMembers lowest 1 more ++ (')' :: rest))) := by
  rw [printExpr, printMembers, if_neg (Nat.lt_irrefl 0)]
  simp only [append_assoc, cons_append, nil_append]
  rfl

theorem stack_reads {first : PatternExpr} (first' : first.WellFormed) {more : List PatternExpr} {rest : Text}
    (head : ∀ fuel, Reads (expr fuel) (printExpr lowest first ++ (printMembers lowest 1 more ++ (')' :: rest))) first
      (printMembers lowest 1 more ++ (')' :: rest)))
    (tail : ∀ fuel, Reads (stackMembers fuel) (printMembers lowest 1 more ++ (')' :: rest)) more (')' :: rest))
    (fuel : Nat) : Reads (expr fuel) (printExpr lowest (.stack (first :: more)) ++ rest) (.stack (first :: more)) rest := by
  rw [stack_print]
  apply call_reads .stack (printExpr_starts first' _)
  intro fuel
  cases fuel with
  | zero => exact Reads.exhausted _ _ _
  | succ fuel =>
    apply Reads.bind (head fuel)
    apply Reads.bind (tail fuel)
    exact Reads.pure _ _

mutual

theorem expr_reads (small : lowest ≤ 0.5) : ∀ (target : PatternExpr), target.WellFormed →
    AllPlain lowest target.floats → ∀ (rest : Text), Follows afterSteps rest →
      ∀ fuel, Reads (expr fuel) (printExpr lowest target ++ rest) target rest
  | .seq _, ⟨nonempty, list'⟩, plain, _, follows => fun fuel => seq_reads list' nonempty plain fuel follows
  | .stack [], ⟨nonempty, _⟩, _, _, _ => absurd rfl nonempty
  | .stack (first :: more), ⟨_, first', more'⟩, plain, rest, _ =>
    stack_reads first' (expr_reads small first first' (allPlain_append.mp plain).1 _ (printMembers_follows lowest 0 more rest))
      (members_read small more more' (allPlain_append.mp plain).2 0 rest)
  | .every period offset _ inner, ⟨transform', inner'⟩, plain, rest, _ =>
    every_reads small period offset transform' (allPlain_append.mp plain).1 inner'
      (readsInside (expr_reads small inner inner' (allPlain_append.mp plain).2) rest)
  | .rotate count inner, wellFormed, plain, rest, _ => by
    rw [PatternExpr.WellFormed] at wellFormed
    rw [PatternExpr.floats] at plain
    exact rotate_reads count wellFormed (readsInside (expr_reads small inner wellFormed plain) rest)
  | .euclid hits slots rotation target, wellFormed, plain, rest, _ => by
    rw [PatternExpr.WellFormed] at wellFormed
    rw [PatternExpr.floats] at plain
    exact euclid_reads hits slots rotation wellFormed fun fuel => element_reads target wellFormed plain fuel _
      (close_follows rest).steps_to_step.step_to_element
  | .fast factor inner, wellFormed, plain, rest, _ => by
    rw [PatternExpr.WellFormed] at wellFormed
    rw [PatternExpr.floats] at plain
    exact fast_reads factor wellFormed (readsInside (expr_reads small inner wellFormed plain) rest)
  | .slow factor inner, wellFormed, plain, rest, _ => by
    rw [PatternExpr.WellFormed] at wellFormed
    rw [PatternExpr.floats] at plain
    exact slow_reads factor wellFormed (readsInside (expr_reads small inner wellFormed plain) rest)
  | .swing _ inner, ⟨amount', inner'⟩, plain, rest, _ =>
    swing_reads small amount' (forall_mem_cons.mp plain).1 inner'
      (readsInside (expr_reads small inner inner' (forall_mem_cons.mp plain).2) rest)
  | .gain _ inner, ⟨linear', inner'⟩, plain, rest, _ =>
    gain_reads small linear' (forall_mem_cons.mp plain).1 inner'
      (readsInside (expr_reads small inner inner' (forall_mem_cons.mp plain).2) rest)
  | .degrade _ inner, ⟨probability', inner'⟩, plain, rest, _ =>
    degrade_reads small probability' (forall_mem_cons.mp plain).1 inner'
      (readsInside (expr_reads small inner inner' (forall_mem_cons.mp plain).2) rest)

theorem members_read (small : lowest ≤ 0.5) : ∀ (members : List PatternExpr), MembersWellFormed members →
    AllPlain lowest (membersFloats members) → ∀ (index : Nat) (rest : Text),
      ∀ fuel, Reads (stackMembers fuel) (printMembers lowest (index + 1) members ++ (')' :: rest)) members (')' :: rest)
  | [], _, _, _, rest => membersNil_read rest
  | member :: more, ⟨member', more'⟩, plain, index, rest =>
    membersCons_read index member'
      (expr_reads small member member' (allPlain_append.mp plain).1 _ (printMembers_follows lowest (index + 1) more rest))
      (members_read small more more' (allPlain_append.mp plain).2 (index + 1) rest)

end

end Parser

end Audec.PatternLang
