import Audec.PatternLang.Parsed

open List

namespace Audec.PatternLang

open Machine FloatDebug FloatDecimal Traced Scanner.Reads

def Follows (allowed : List Char) (text : Text) : Prop := ∀ c ∈ text.head?, c ∈ allowed

def afterSteps : List Char := [']', '>', ')', ',']
def afterStep : List Char := ' ' :: afterSteps
def afterElement : List Char := ['*', '!', '@', '?', '^'] ++ afterStep

namespace Follows

theorem nil (allowed : List Char) : Follows allowed [] := fun _ inside => nomatch inside

variable {allowed : List Char} {text : Text}

theorem cons {c : Char} (inside : c ∈ allowed) (text : Text) : Follows allowed (c :: text) := by
  rintro _ ⟨⟩
  exact inside

theorem mono {small large : List Char} (follows : Follows small text)
    (subset : ∀ c ∈ small, c ∈ large) : Follows large text :=
  fun c inside => subset c (follows c inside)

theorem step_to_element (follows : Follows afterStep text) : Follows afterElement text :=
  follows.mono fun _ inside => mem_append_right _ inside

theorem steps_to_step (follows : Follows afterSteps text) : Follows afterStep text :=
  follows.mono fun _ inside => mem_cons_of_mem _ inside

theorem rejects (follows : Follows allowed text) (test : Char → Bool)
    (rejected : allowed.any test = false) : Scanner.Stops test text := by
  intro c inside
  exact Bool.eq_false_iff.mpr (any_eq_false.mp rejected c (follows c inside))

theorem head_ne (follows : Follows allowed text) {c : Char} (outside : c ∉ allowed) :
    text.head? ≠ some c :=
  fun starts => outside (follows c starts)

end Follows

namespace Parser

open Scanner hiding pure bind

variable {text rest : Text}

theorem skipSpace_reads (starts : Stops isSpace text) : Reads skipSpace text () text :=
  bind (run isSpace [] (fun _ inside => nomatch inside) starts) (pure () text)

theorem skipSpace_space (starts : Stops isSpace text) :
    Reads skipSpace (' ' :: text) () text := by
  have space : ∀ c ∈ [' '], isSpace c = true := forall_mem_singleton.mpr rfl
  exact bind (run isSpace [' '] space starts) (pure () text)

theorem expect_reads (c : Char) (text : Text) : Reads (expect c) (c :: text) () text := by
  apply Reads.peek
  rw [head?_cons, if_pos rfl]
  exact fun _ => Run.Reaches.pure ((), text)

section

variable (starts : Stops isSpace text)
include starts

theorem comma_reads :
    Reads comma (separator ++ text) true text := by
  have separator : separator ++ text = ',' :: ' ' :: text := rfl
  rw [separator]
  apply Reads.bind (skipSpace_reads (Stops.cons rfl _))
  apply Reads.peek
  apply Reads.advance
  apply bind (skipSpace_space starts)
  exact pure true text

theorem comma_absent (different : text.head? ≠ some ',') :
    Reads comma text false text := by
  apply bind (skipSpace_reads starts)
  apply Reads.peek
  rw [if_neg different]
  exact pure false text

theorem requireComma_reads :
    Reads requireComma (separator ++ text) () text :=
  bind (comma_reads starts) (pure () text)

end

theorem identText_append {word : Text} (ident : IsIdent word) (stops : Stops isIdentRest rest) :
    identText (word ++ rest) = some (word, rest) := by
  cases word with
  | nil => exact absurd ident id
  | cons c more =>
    have nothing := stops.span
    rw [cons_append, identText, if_pos ident.1, takeWhile_append_of_pos ident.2,
      dropWhile_append_of_pos ident.2, nothing.1, nothing.2, append_nil]

theorem ident_reads {word : Text} (ident : IsIdent word) (stops : Stops isIdentRest rest) :
    Reads Parser.ident (word ++ rest) (some word) rest := by
  intro total
  unfold Parser.ident
  rw [identText_append ident stops]
  exact Run.Reaches.pure (some word, rest)

theorem integer_reads {n : Nat} (fits : n < 0x10000000000000000)
    (stops : Stops Char.isDigit rest) : Reads integer (Nat.toDigits 10 n ++ rest) ⟨n, fits⟩ rest := by
  apply bind (run Char.isDigit _ (toDigits_isDigit n) stops)
  rw [if_neg (toDigits_ne_nil n)]
  simp only [value_toDigits, dif_pos fits]
  exact pure _ rest

theorem count_reads (n : U32) (rest : Text) (stops : Stops Char.isDigit rest) :
    ∃ count : U64, count.asU32 = n ∧ Reads integer (Print.natural n ++ rest) count rest := by
  have fits : n.val < 0x10000000000000000 := Nat.lt_of_lt_of_le n.isLt (by decide)
  exact ⟨⟨n.val, fits⟩, Fin.ext (U64.asU32_of_lt n.isLt), integer_reads fits stops⟩

theorem natural_reads (n : U32) (stops : Stops Char.isDigit rest) :
    Reads u32 (Print.natural n ++ rest) n rest := by
  obtain ⟨count, rfl, reads⟩ := count_reads n rest stops
  exact bind reads (pure count.asU32 rest)

theorem digits_head (n : Nat) (rest : Text) : ∀ c ∈ (Nat.toDigits 10 n ++ rest).head?, c.isDigit = true := by
  intro c inside
  cases digits : Nat.toDigits 10 n with
  | nil => exact absurd digits (toDigits_ne_nil n)
  | cons d more =>
    rw [digits] at inside
    cases inside
    exact toDigits_isDigit n c (by rw [digits]; exact mem_cons_self)

theorem signed_reads (n : I32) (stops : Stops Char.isDigit rest) :
    ∃ m, asI32 m = n ∧ Reads signedInteger (Print.integer n ++ rest) m rest := by
  have lower := n.lower
  have upper := n.upper
  have fits : n.val.natAbs < 0x10000000000000000 := by omega
  have magnitude : (I64.wrap n.val.natAbs).val = n.val.natAbs := I64.wrap_val (by omega) (by omega)
  unfold Print.integer
  split
  · rename_i negative
    have negated : -((n.val.natAbs : Nat) : Int) = n.val := by omega
    refine ⟨I64.wrap n.val, ?_, ?_⟩
    · unfold asI32
      rw [I64.wrap_val (by omega) (by omega), I32.wrap_self]
    · apply Reads.peek
      apply Reads.advance
      apply bind (integer_reads fits stops)
      intro total
      unfold negate
      simp only [magnitude, negated]
      rw [if_neg (by omega)]
      exact Or.inr rfl
  · rename_i positive
    have same : ((n.val.natAbs : Nat) : Int) = n.val := by omega
    refine ⟨I64.wrap n.val, ?_, ?_⟩
    · unfold asI32
      rw [I64.wrap_val (by omega) (by omega), I32.wrap_self]
    · apply Reads.peek
      have digit : (Nat.toDigits 10 n.val.natAbs ++ rest).head? ≠ some '-' := by
        intro minus
        exact absurd (digits_head _ rest '-' minus) (by decide)
      rw [nil_append, if_neg digit]
      apply bind (integer_reads fits stops)
      dsimp only
      rw [same]
      exact pure _ rest

theorem fraction_reads (digits : Option Text) (all : ∀ c ∈ digits.getD [], c.isDigit = true)
    (stops : Stops Char.isDigit rest) (noPoint : rest.head? ≠ some '.') :
    Reads fraction (Literal.pointText digits ++ rest) digits rest := by
  apply Reads.peek
  cases digits with
  | none =>
    rw [Literal.pointText, nil_append, if_neg noPoint]
    exact pure none rest
  | some digits =>
    rw [Literal.pointText, cons_append, head?_cons, if_pos rfl]
    apply Reads.advance
    apply bind (run Char.isDigit digits all stops)
    exact pure (some digits) rest

theorem literal_reads (l : Literal) (stops : Stops Char.isDigit rest)
    (noPoint : rest.head? ≠ some '.') : Reads number (l.text ++ rest) l.read rest := by
  have whole : Stops Char.isDigit (Literal.pointText l.fraction ++ rest) := by
    cases l.fraction with
    | none => exact stops
    | some digits =>
      rintro _ ⟨⟩
      rfl
  rw [Literal.text, append_assoc]
  apply bind (run Char.isDigit l.whole l.wholeDigits whole)
  apply bind (fraction_reads l.fraction l.fractionDigits stops noPoint)
  unfold Literal.read
  cases l.fraction with
  | none =>
    dsimp only
    rw [if_neg l.nonempty, Option.getD_none, append_nil]
    exact pure _ rest
  | some digits =>
    dsimp only
    rw [if_neg (append_ne_nil_of_left_ne_nil l.nonempty _)]
    exact pure _ rest

variable {lowest : Float32}

theorem number_reads {x : Float32} (readable : Readable x) (plain : Plain lowest x)
    (stops : Stops Char.isDigit rest) (noPoint : rest.head? ≠ some '.') :
    Reads number (debug lowest x ++ rest) x rest := by
  obtain ⟨l, text, read⟩ := debug_plain readable plain
  have reads := literal_reads l stops noPoint
  rwa [read, ← text] at reads

theorem number_not_plain (small : lowest ≤ 0.5) {x : Float32} (readable : Readable x) (notPlain : ¬ Plain lowest x)
    (rest : Text) : (debug lowest x = ['i', 'n', 'f'] ∧ x ≠ 0.5) ∨
      ∃ y more, y ≠ x ∧ startsWithDigit (debug lowest x ++ rest) = true ∧
        Reads number (debug lowest x ++ rest) y ('e' :: more) := by
  rcases debug_not_plain small readable notPlain with infinite | ⟨l, exponent, -, text, different⟩
  · exact Or.inl infinite
  · refine Or.inr ⟨l.read, exponent ++ rest, different, ?_, ?_⟩
    · rw [text]
      cases whole : l.whole with
      | nil => exact absurd whole l.nonempty
      | cons c more =>
        rw [Literal.text, whole]
        exact l.wholeDigits c (by rw [whole]; exact mem_cons_self)
    · rw [text, append_assoc]
      exact literal_reads l (Stops.cons rfl _) (by rintro ⟨⟩)

end Parser

end Audec.PatternLang
