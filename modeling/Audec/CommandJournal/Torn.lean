import Audec.CommandJournal.Frame

/-! What is recovered from a journal that was cut off anywhere. -/

open Machine Checked Documents LittleEndian List

namespace Audec.CommandJournal

open Nat

variable {bytes payload encoding : Bytes} {offset length : Nat} {frame : JournalFrame}
  {previous : Option JournalFrame} {frames : List JournalFrame}

theorem slice?_take {start stop cut : Nat} (inside : stop ≤ cut) (bound : cut ≤ bytes.length) :
    slice? (bytes.take cut) start stop = slice? bytes start stop := by
  unfold slice?
  rw [length_take, min_eq_left bound, drop_take, take_take]
  by_cases ordered : start ≤ stop
  · rw [if_pos ⟨ordered, inside⟩, if_pos ⟨ordered, le_trans inside bound⟩, min_eq_left (by omega)]
  · rw [if_neg fun both => ordered both.1, if_neg fun both => ordered both.1]

theorem slice?_some {start stop : Nat} (ordered : start ≤ stop) (bound : stop ≤ bytes.length) :
    ∃ part, slice? bytes start stop = some part ∧ part.length = stop - start := by
  refine ⟨(bytes.drop start).take (stop - start), if_pos ⟨ordered, bound⟩, ?_⟩
  rw [length_take, length_drop]
  omega

theorem slice?_drop (bound : offset ≤ bytes.length) (start stop : Nat) :
    slice? bytes (offset + start) (offset + stop) = slice? (bytes.drop offset) start stop := by
  unfold slice?
  rw [length_drop, drop_drop, show offset + stop - (offset + start) = stop - start by omega]
  exact if_congr (by omega) rfl rfl

theorem slice?_append {before part after : Bytes} {start stop : Nat} (start' : before.length = start)
    (stop' : before.length + part.length = stop) : slice? (before ++ part ++ after) start stop = some part := by
  unfold slice?
  subst start' stop'
  rw [if_pos, append_assoc, drop_left, Nat.add_sub_cancel_left, take_left]
  simp only [length_append]
  omega

@[simp] theorem length_frameMagic : frameMagic.length = 8 := rfl

@[simp] theorem headerLen_eq : headerLen = 32 := rfl

@[simp] theorem length_frameHeader (payload : Bytes) : (frameHeader payload).length = 32 := by
  unfold frameHeader
  simp only [length_append, length_frameMagic, length_toBytes]

theorem exactly?_some (same : bytes.length = length) : exactly? length bytes = some bytes :=
  if_pos same

theorem readHeader_some (bound : offset + headerLen ≤ bytes.length) :
    ∃ header, readHeader bytes offset = some header := by
  obtain ⟨header, sliced, length⟩ := slice?_some (le_add_right offset headerLen) bound
  rw [Nat.add_sub_cancel_left, headerLen_eq] at length
  obtain ⟨magic, first, -⟩ := @slice?_some header 0 8 (by omega) (by omega)
  obtain ⟨payloadLen, second, length₂⟩ := @slice?_some header 8 16 (by omega) (by omega)
  obtain ⟨checksum, third, length₃⟩ := @slice?_some header 16 32 (by omega) (by omega)
  refine ⟨⟨magic, ofBytes payloadLen, ofBytes checksum⟩, ?_⟩
  unfold readHeader
  simp only [headerLen_eq, length_frameMagic, reduceAdd] at sliced ⊢
  simp only [sliced, first, second, third, Option.bind_eq_bind, Option.bind_some, exactly?_some length₂, exactly?_some length₃]
  rfl

theorem readHeader_take {cut : Nat} (inside : offset + headerLen ≤ cut) (bound : cut ≤ bytes.length) :
    readHeader (bytes.take cut) offset = readHeader bytes offset := by
  unfold readHeader
  rw [slice?_take inside bound]

theorem readHeader_encoded {more : Bytes} (bound : offset ≤ bytes.length)
    (fits : payload.length < 0x10000000000000000) (rest : bytes.drop offset = frameHeader payload ++ more) :
    readHeader bytes offset = some ⟨frameMagic, payload.length, (fnv1a128 payload).toNat⟩ := by
  have header : slice? bytes offset (offset + headerLen) = some (frameHeader payload) := by
    rw [← add_zero offset, add_assoc, slice?_drop bound, zero_add, rest]
    exact @slice?_append [] _ _ _ _ rfl (by simp)
  have magic : slice? (frameHeader payload) 0 frameMagic.length = some frameMagic := by
    unfold frameHeader
    rw [append_assoc]
    exact @slice?_append [] _ _ _ _ rfl (by simp)
  have payloadLen : slice? (frameHeader payload) frameMagic.length (frameMagic.length + 8) = some (toBytes 8 payload.length) :=
    slice?_append rfl (by simp)
  have checksum : slice? (frameHeader payload) (frameMagic.length + 8) headerLen =
      some (toBytes 16 (fnv1a128 payload).toNat) := by
    unfold frameHeader
    rw [← append_nil (_ ++ toBytes 16 _)]
    exact slice?_append (by simp) (by simp)
  unfold readHeader
  simp only [header, magic, payloadLen, checksum, Option.bind_eq_bind, Option.bind_some,
    exactly?_some (length_toBytes _ _), @ofBytes_toBytes 8 _ fits,
    @ofBytes_toBytes 16 _ (fnv1a128 payload).isLt]
  rfl

theorem frameLen_ok {header : Header} {maxFrameBytes : Nat} : header.frameLen maxFrameBytes = .ok length ↔
    header.magic = frameMagic ∧ header.payloadLen ≤ maxFrameBytes ∧ headerLen + header.payloadLen < 0x10000000000000000 ∧
      length = headerLen + header.payloadLen := by
  unfold Header.frameLen
  simp only [bind_unit_ok, ensure_ok, pure, Except.pure, Except.ok.injEq]
  exact and_congr_right fun _ => and_congr_right fun _ => and_congr_right fun _ => eq_comm

variable {json : SerdeJson} {maxFrameBytes : Nat}

theorem nextFrame_answers (bound : offset ≤ bytes.length) (previous : Option JournalFrame) :
    nextFrame json maxFrameBytes bytes offset previous ≠ none := by
  unfold nextFrame
  dsimp only
  split
  · exact nofun
  · rename_i long
    obtain ⟨header, read⟩ := @readHeader_some bytes offset (by omega)
    rw [read]
    dsimp only
    split
    · exact nofun
    · rename_i length same
      obtain ⟨-, -, -, rfl⟩ := frameLen_ok.mp same
      split
      · exact nofun
      · rename_i long'
        obtain ⟨payload, sliced, -⟩ := @slice?_some bytes (offset + headerLen) (offset + (headerLen + header.payloadLen))
          (by omega) (by omega)
        rw [sliced]
        dsimp only
        split <;> exact nofun

theorem readFrame_ok {checksum : Nat} :
    readFrame json previous checksum payload = .ok frame ↔
      (fnv1a128 payload).toNat = checksum ∧ (json.fromSlice payload).bind JournalFrame.ofDocument = some frame ∧
        frame.validate = .ok () ∧ connect previous frame = .ok () := by
  unfold readFrame
  rw [bind_unit_ok, ensure_ok]
  refine and_congr_right fun _ => ?_
  cases read : (json.fromSlice payload).bind JournalFrame.ofDocument with
  | none => simp
  | some found =>
    simp only [bind_unit_ok, pure, Except.pure, Except.ok.injEq, Option.some.injEq]
    have mapped : (found.validate.mapError fun error => JournalCorruption.invalidFrame error.text) = .ok () ↔
        found.validate = .ok () := by
      cases found.validate <;> simp [Except.mapError]
    rw [mapped]
    constructor
    · rintro ⟨valid, connected, rfl⟩
      exact ⟨rfl, valid, connected⟩
    · rintro ⟨rfl, valid, connected⟩
      exact ⟨valid, connected, rfl⟩

structure Found (json : SerdeJson) (maxFrameBytes : Nat) (bytes : Bytes) (offset : Nat) (previous : Option JournalFrame)
    (frame : JournalFrame) (length : Nat) : Prop where
  header : headerLen ≤ length
  inside : offset + length ≤ bytes.length
  connected : connect previous frame = .ok ()
  distinct : frame.Distinct
  cut : ∀ cut, offset + length ≤ cut → cut ≤ bytes.length →
    nextFrame json maxFrameBytes (bytes.take cut) offset previous = some (.ok (frame, length))

theorem nextFrame_found
    (bound : offset ≤ bytes.length) (found : nextFrame json maxFrameBytes bytes offset previous = some (.ok (frame, length))) :
    Found json maxFrameBytes bytes offset previous frame length := by
  unfold nextFrame at found
  dsimp only at found
  split at found
  · cases found
  rename_i long
  split at found
  · cases found
  rename_i header read
  split at found
  · cases found
  rename_i length' same
  split at found
  · cases found
  rename_i long'
  split at found
  · cases found
  rename_i payload sliced
  split at found
  · cases found
  rename_i frame' parsed
  cases found
  obtain ⟨-, decoded, -, connected⟩ := readFrame_ok.mp parsed
  obtain ⟨document, -, decoded'⟩ := Option.bind_eq_some_iff.mp decoded
  have sum := (frameLen_ok.mp same).2.2.2
  have headerBound : headerLen ≤ length := sum ▸ le_add_right _ _
  refine ⟨headerBound, by omega, connected, JournalFrame.ofDocument_distinct decoded', ?_⟩
  intro cut inside bound'
  unfold nextFrame
  dsimp only
  rw [length_take, min_eq_left bound', if_neg (by omega), readHeader_take (by omega) bound', read]
  dsimp only
  rw [same]
  dsimp only
  rw [if_neg (by omega), slice?_take inside bound', sliced]
  dsimp only
  rw [parsed]

/-- A frame that goes on where the one before it ends. -/
def Follows (previous frame : JournalFrame) : Prop :=
  frame.sequence.val = previous.sequence.val + 1 ∧ frame.baseRevision = previous.resultingRevision

def Connected (frames : List JournalFrame) : Prop := frames.IsChain Follows

theorem connect_ok :
    connect previous frame = .ok () ↔ ∀ before ∈ previous, Follows before frame := by
  cases previous with
  | none => exact ⟨fun _ _ inside => (nomatch inside), fun _ => rfl⟩
  | some before =>
    simp only [Option.mem_some, forall_eq']
    unfold connect Follows
    dsimp only
    cases next : checkedSucc before.sequence with
    | none =>
      refine ⟨fun impossible => (nomatch impossible), fun both => ?_⟩
      rw [checkedSucc_eq_some.mpr both.1] at next
      cases next
    | some expected =>
      rw [bind_unit_ok, ensure_ok, ensure_ok, ← checkedSucc_eq_some, next, Option.some.injEq]
      exact and_congr_left fun _ => eq_comm

theorem Connected.concat (connected : Connected frames)
    (last : connect frames.getLast? frame = .ok ()) : Connected (frames ++ [frame]) := by
  unfold Connected
  rw [isChain_append]
  refine ⟨connected, isChain_singleton frame, ?_⟩
  intro before inside other first
  cases first
  exact connect_ok.mp last before inside

theorem recoverFrom_answers {steps : Nat}
    (bound : offset ≤ bytes.length) (enough : bytes.length - offset < steps) :
    ∃ recovery, recoverFrom json maxFrameBytes bytes steps frames offset = some recovery := by
  induction steps generalizing frames offset with
  | zero => exact absurd enough (not_lt_zero _)
  | succ steps ih =>
    unfold recoverFrom
    split
    · split
      · exact absurd ‹_› (nextFrame_answers bound _)
      · exact ⟨_, rfl⟩
      · rename_i frame length found
        obtain ⟨header, inside, -, -, -⟩ := nextFrame_found bound found
        rw [headerLen_eq] at header
        exact ih inside (by omega)
    · exact ⟨_, rfl⟩

structure Recovered (json : SerdeJson) (maxFrameBytes : Nat) (bytes : Bytes) (frames : List JournalFrame) (offset : Nat)
    (recovery : JournalRecovery) : Prop where
  connected : Connected recovery.frames
  distinct : ∀ frame ∈ recovery.frames, frame.Distinct
  start : offset ≤ recovery.validBytes
  inside : recovery.validBytes ≤ bytes.length
  again : ∀ steps, recovery.validBytes - offset < steps →
    recoverFrom json maxFrameBytes (bytes.take recovery.validBytes) steps frames offset =
      some ⟨recovery.frames, recovery.validBytes, .clean⟩

theorem recoverFrom_recovered {steps : Nat}
    {recovery : JournalRecovery} (bound : offset ≤ bytes.length) (connected : Connected frames)
    (distinct : ∀ frame ∈ frames, frame.Distinct)
    (recovers : recoverFrom json maxFrameBytes bytes steps frames offset = some recovery) :
    Recovered json maxFrameBytes bytes frames offset recovery := by
  induction steps generalizing frames offset with
  | zero => cases recovers
  | succ steps ih =>
    have stopped (tail : JournalTail) : Recovered json maxFrameBytes bytes frames offset ⟨frames, offset, tail⟩ := by
      refine ⟨connected, distinct, le_refl offset, bound, ?_⟩
      intro steps enough
      cases steps with
      | zero => exact absurd enough (not_lt_zero _)
      | succ steps =>
        unfold recoverFrom
        dsimp only
        rw [length_take, min_eq_left bound, if_neg (lt_irrefl offset)]
    unfold recoverFrom at recovers
    split at recovers
    · split at recovers
      · cases recovers
      · cases recovers
        exact stopped _
      · rename_i frame length found
        obtain ⟨header, inside, last, apart, cut⟩ := nextFrame_found bound found
        rw [headerLen_eq] at header
        have distinct' : ∀ other ∈ frames ++ [frame], other.Distinct := by
          intro other held
          rcases mem_append.mp held with held | held
          · exact distinct other held
          · rw [mem_singleton.mp held]
            exact apart
        have rest := ih inside (connected.concat last) distinct' recovers
        refine ⟨rest.connected, rest.distinct, le_trans (le_add_right _ _) rest.start, rest.inside, ?_⟩
        intro steps enough
        cases steps with
        | zero => exact absurd enough (not_lt_zero _)
        | succ steps =>
          have start := rest.start
          have inside' := rest.inside
          unfold recoverFrom
          rw [length_take, min_eq_left inside', if_pos (by omega), cut _ start inside']
          exact rest.again steps (by omega)
    · cases recovers
      exact stopped _

/-- Recovery comes to an end without a panic; its frames are connected and lie within the bytes, and the bytes it calls
    valid are recovered again, completely. -/
def RecoversSoundly (json : SerdeJson) (bytes : Bytes) : Prop :=
  ∃ recovery, recoverPrefix json bytes = some recovery ∧ Connected recovery.frames ∧ recovery.validBytes ≤ bytes.length ∧
    recoverPrefix json (bytes.take recovery.validBytes) = some ⟨recovery.frames, recovery.validBytes, .clean⟩

theorem recoverPrefix_recovered {recovery : JournalRecovery} (recovers : recoverPrefix json bytes = some recovery) :
    Recovered json defaultMaxFrameBytes.val bytes [] 0 recovery :=
  recoverFrom_recovered (zero_le _) isChain_nil (fun _ inside => nomatch inside) recovers

theorem recovers_soundly (json : SerdeJson) (bytes : Bytes) : RecoversSoundly json bytes := by
  obtain ⟨recovery, recovers⟩ : ∃ recovery, recoverPrefix json bytes = some recovery :=
    recoverFrom_answers (zero_le _) (lt_succ_self _)
  have known := recoverPrefix_recovered recovers
  refine ⟨recovery, recovers, known.connected, known.inside, known.again _ ?_⟩
  rw [length_take, min_eq_left known.inside]
  exact lt_succ_self _

theorem encodeFrame_ok : encodeFrame json frame = .ok encoding ↔
    ∃ payload, frame.validate = .ok () ∧ json.toVec frame.document = some payload ∧
      payload.length ≤ defaultMaxFrameBytes.val ∧ encoding = frameHeader payload ++ payload := by
  unfold encodeFrame
  have mapped : frame.validate.mapError JournalEncodeError.invalid = .ok () ↔ frame.validate = .ok () := by
    cases frame.validate <;> simp [Except.mapError]
  rw [bind_unit_ok, mapped]
  cases json.toVec frame.document with
  | none => simp
  | some payload =>
    simp only [bind_unit_ok, ensure_ok, pure, Except.pure, Except.ok.injEq, Option.some.injEq]
    constructor
    · rintro ⟨valid, short, rfl⟩
      exact ⟨payload, valid, rfl, short, rfl⟩
    · rintro ⟨_, valid, rfl, short, rfl⟩
      exact ⟨valid, short, rfl⟩

def Encodes (json : SerdeJson) (frame : JournalFrame) (encoding : Bytes) : Prop :=
  ∃ payload, frame.validate = .ok () ∧ (json.fromSlice payload).bind JournalFrame.ofDocument = some frame ∧
    payload.length ≤ defaultMaxFrameBytes.val ∧ encoding = frameHeader payload ++ payload

theorem short_payload (short : payload.length ≤ defaultMaxFrameBytes.val) :
    headerLen + payload.length < 0x10000000000000000 := by
  have limit : defaultMaxFrameBytes.val = 0x4000000 := by decide
  rw [headerLen_eq]
  omega

theorem frameLen_encoded (short : payload.length ≤ defaultMaxFrameBytes.val) (checksum : Nat) :
    (Header.mk frameMagic payload.length checksum).frameLen defaultMaxFrameBytes.val = .ok (headerLen + payload.length) :=
  frameLen_ok.mpr ⟨rfl, short, short_payload short, rfl⟩

theorem Encodes.next {more : Bytes}
    (encodes : Encodes json frame encoding) (connected : connect previous frame = .ok ()) (bound : offset ≤ bytes.length)
    (rest : bytes.drop offset = encoding ++ more) :
    nextFrame json defaultMaxFrameBytes.val bytes offset previous = some (.ok (frame, encoding.length)) := by
  obtain ⟨payload, valid, decoded, short, rfl⟩ := encodes
  have fits := short_payload short
  have size : bytes.length - offset = 32 + payload.length + more.length := by
    rw [← length_drop, rest, length_append, length_append, length_frameHeader]
  have read := @readHeader_encoded bytes payload offset (payload ++ more) bound (by omega)
    (by rw [rest, append_assoc])
  have sliced : slice? bytes (offset + headerLen) (offset + (headerLen + payload.length)) = some payload := by
    rw [slice?_drop bound, rest]
    exact slice?_append (length_frameHeader payload) (by rw [length_frameHeader, headerLen_eq])
  have whole : readFrame json previous (fnv1a128 payload).toNat payload = .ok frame :=
    readFrame_ok.mpr ⟨rfl, decoded, valid, connected⟩
  unfold nextFrame
  rw [headerLen_eq] at *
  dsimp only
  rw [size, if_neg (by omega), read]
  dsimp only
  rw [frameLen_encoded short, headerLen_eq]
  dsimp only
  rw [if_neg (by omega), sliced]
  dsimp only
  rw [whole, length_append, length_frameHeader]

theorem Encodes.torn {cut : Nat} (encodes : Encodes json frame encoding)
    (previous : Option JournalFrame) (bound : offset ≤ bytes.length) (proper : cut < encoding.length)
    (rest : bytes.drop offset = encoding.take cut) : ∃ required,
      nextFrame json defaultMaxFrameBytes.val bytes offset previous = some (.error (.truncated offset cut required)) := by
  obtain ⟨payload, -, -, short, rfl⟩ := encodes
  have fits := short_payload short
  rw [length_append, length_frameHeader] at proper
  have size : bytes.length - offset = cut := by
    rw [← length_drop, rest, length_take, length_append, length_frameHeader]
    omega
  unfold nextFrame
  rw [headerLen_eq] at *
  dsimp only
  rw [size]
  by_cases small : cut < 32
  · rw [if_pos small]
    exact ⟨some 32, rfl⟩
  · have read := @readHeader_encoded bytes payload offset (payload.take (cut - 32)) bound (by omega) (by
      rw [rest, take_append, length_frameHeader, take_of_length_le (by rw [length_frameHeader]; omega)])
    rw [if_neg small, read]
    dsimp only
    rw [frameLen_encoded short, headerLen_eq]
    dsimp only
    rw [if_pos proper]
    exact ⟨some (32 + payload.length), rfl⟩

/-- How many frames lie wholly before a cut. -/
def framesInside : List Bytes → Nat → Nat
  | [], _ => 0
  | encoding :: encodings, cut => if encoding.length ≤ cut then framesInside encodings (cut - encoding.length) + 1 else 0

theorem framesInside_all (encodings : List Bytes) : framesInside encodings encodings.flatten.length = encodings.length := by
  induction encodings with
  | nil => rfl
  | cons encoding encodings ih =>
    rw [framesInside, flatten_cons, length_append, if_pos (Nat.le_add_right _ _), Nat.add_sub_cancel_left, ih]
    rfl

def ExactTail (validBytes cut : Nat) (tail : JournalTail) : Prop :=
  (cut = validBytes ∧ tail = .clean) ∨
    (cut ≠ validBytes ∧ ∃ required, tail = .truncated validBytes (cut - validBytes) required)

theorem recoverFrom_exact {read : List JournalFrame} {encodings : List Bytes} {steps cut : Nat}
    (encodes : List.Forall₂ (Encodes json) frames encodings) (connected : Connected (read ++ frames))
    (bound : offset ≤ bytes.length) (rest : bytes.drop offset = encodings.flatten.take cut)
    (within : cut ≤ encodings.flatten.length) (enough : cut < steps) :
    ∃ tail, recoverFrom json defaultMaxFrameBytes.val bytes steps read offset =
        some ⟨read ++ frames.take (framesInside encodings cut),
          offset + (encodings.take (framesInside encodings cut)).flatten.length, tail⟩ ∧
      ExactTail (offset + (encodings.take (framesInside encodings cut)).flatten.length) (offset + cut) tail := by
  have size : bytes.length - offset = cut := by
    rw [← length_drop, rest, length_take, min_eq_left within]
  induction encodes generalizing read steps offset cut with
  | nil =>
    cases le_zero.mp within
    obtain ⟨steps, rfl⟩ := exists_eq_succ_of_ne_zero (ne_of_gt enough)
    unfold recoverFrom
    rw [if_neg (by omega)]
    exact ⟨.clean, by simp [framesInside], .inl ⟨by simp [framesInside], rfl⟩⟩
  | @cons frame encoding frames encodings first others ih =>
    obtain ⟨steps, rfl⟩ := exists_eq_succ_of_ne_zero (ne_of_gt (lt_of_le_of_lt (zero_le cut) enough))
    have header : 32 ≤ encoding.length := by
      obtain ⟨payload, -, -, -, rfl⟩ := first
      rw [length_append, length_frameHeader]
      exact le_add_right _ _
    rw [flatten_cons] at rest within
    rw [length_append] at within
    have connects : connect read.getLast? frame = .ok () := by
      apply connect_ok.mpr
      intro before inside
      exact (isChain_append.mp connected).2.2 before inside frame rfl
    unfold recoverFrom framesInside
    by_cases whole : encoding.length ≤ cut
    · have rest' : bytes.drop offset = encoding ++ encodings.flatten.take (cut - encoding.length) := by
        rw [rest, take_append, take_of_length_le whole]
      rw [if_pos (by omega), first.next connects bound rest', if_pos whole]
      dsimp only
      have next := @ih (offset + encoding.length) (read ++ [frame]) steps (cut - encoding.length)
        (by rwa [append_assoc]) (by omega)
        (by rw [← drop_drop, rest', drop_left]) (by omega) (by omega) (by omega)
      obtain ⟨tail, recovers, exact⟩ := next
      refine ⟨tail, ?_, ?_⟩
      · rw [recovers, take_succ_cons, take_succ_cons, flatten_cons, length_append, append_assoc,
          add_assoc]
        rfl
      · rw [take_succ_cons, flatten_cons, length_append, ← add_assoc]
        rwa [show offset + encoding.length + (cut - encoding.length) = offset + cut by omega] at exact
    · rw [if_neg whole]
      have rest' : bytes.drop offset = encoding.take cut := by
        rw [rest, take_append_of_le_length (by omega)]
      obtain ⟨required, torn⟩ := first.torn read.getLast? bound (by omega) rest'
      by_cases nothing : cut = 0
      · subst nothing
        rw [if_neg (by omega)]
        exact ⟨.clean, by simp, .inl ⟨by simp, rfl⟩⟩
      · rw [if_pos (by omega), torn]
        refine ⟨.truncated offset cut required, by simp, .inr ⟨?_, required, ?_⟩⟩
        · simpa using nothing
        · simp

def RecoversExactly (json : SerdeJson) (frames : List JournalFrame) (encodings : List Bytes) (cut : Nat) : Prop :=
  ∃ tail, recoverPrefix json (encodings.flatten.take cut) =
      some ⟨frames.take (framesInside encodings cut), (encodings.take (framesInside encodings cut)).flatten.length, tail⟩ ∧
    ExactTail (encodings.take (framesInside encodings cut)).flatten.length cut tail

def ReadsBack (json : SerdeJson) (document : Document) : Prop :=
  document.Plain → ∀ text, json.toVec document = some text → json.fromSlice text = some document

theorem encodeFrame_encodes (encoded : encodeFrame json frame = .ok encoding)
    (readsBack : ReadsBack json frame.document) (distinct : frame.Distinct) : Encodes json frame encoding := by
  obtain ⟨payload, valid, written, short, rfl⟩ := encodeFrame_ok.mp encoded
  refine ⟨payload, valid, ?_, short, rfl⟩
  rw [readsBack distinct.plain payload written]
  exact JournalFrame.ofDocument_document distinct

theorem RecoversExactly.distinct {encodings : List Bytes}
    (encoded : frames.mapM (encodeFrame json) = .ok encodings)
    (exact : RecoversExactly json frames encodings encodings.flatten.length) : ∀ frame ∈ frames, frame.Distinct := by
  obtain ⟨tail, recovers, -⟩ := exact
  have all := (recoverPrefix_recovered recovers).distinct
  dsimp only at all
  rwa [framesInside_all, ← (mapM_ok.mp encoded).length_eq, take_length] at all

/-- What is recovered of a journal that was cut is exact where every frame's fields keep their names, and nowhere else;
    recovery is sound for any bytes. -/
theorem torn_writes_recover_iff (json : SerdeJson) {frames : List JournalFrame} {encodings : List Bytes}
    (encoded : frames.mapM (encodeFrame json) = .ok encodings) (connected : Connected frames)
    (readsBack : ∀ frame ∈ frames, ReadsBack json frame.document) :
    ((∀ cut ≤ encodings.flatten.length, RecoversExactly json frames encodings cut) ↔ ∀ frame ∈ frames, frame.Distinct) ∧
      ∀ bytes, RecoversSoundly json bytes := by
  refine ⟨⟨?_, ?_⟩, recovers_soundly json⟩
  · intro exact
    exact (exact _ (Nat.le_refl _)).distinct encoded
  · intro distinct cut within
    have encodes : List.Forall₂ (Encodes json) frames encodings := by
      refine List.forall₂_iff_get.mpr ⟨(mapM_ok.mp encoded).length_eq, ?_⟩
      intro index bound bound'
      have inside := List.get_mem frames ⟨index, bound⟩
      exact encodeFrame_encodes ((List.forall₂_iff_get.mp (mapM_ok.mp encoded)).2 index bound bound')
        (readsBack _ inside) (distinct _ inside)
    have size : (encodings.flatten.take cut).length = cut := by
      rw [List.length_take, Nat.min_eq_left within]
    obtain ⟨tail, recovers, exact⟩ := @recoverFrom_exact (encodings.flatten.take cut) 0 frames json [] encodings
      ((encodings.flatten.take cut).length + 1) cut encodes connected (Nat.zero_le _) rfl within (by omega)
    rw [List.nil_append, Nat.zero_add] at recovers
    rw [Nat.zero_add, Nat.zero_add] at exact
    exact ⟨tail, recovers, exact⟩

def quoted (text : String) : Option (List Char) :=
  if text.toList.all (fun c => 0x20 ≤ c.toNat && c.toNat < 0x7f && c ≠ '"' && c ≠ '\\') then some ('"' :: text.toList ++ ['"'])
  else none

mutual

def compact : Document → Option (List Char)
  | .null => some "null".toList
  | .bool value => some (toString value).toList
  | .number (.natural value) => some (toString value.val).toList
  | .number (.negative below) => some ('-' :: (toString (below.val + 1)).toList)
  | .number (.float _) => none
  | .string value => quoted value
  | .array items => do return '[' :: [','].intercalate (← compactItems items) ++ [']']
  | .object fields => do return '{' :: [','].intercalate (← compactFields fields) ++ ['}']

def compactItems : List Document → Option (List (List Char))
  | [] => some []
  | item :: items => do return (← compact item) :: (← compactItems items)

def compactFields : List (String × Document) → Option (List (List Char))
  | [] => some []
  | (name, value) :: fields => do return ((← quoted name) ++ ':' :: (← compact value)) :: (← compactFields fields)

end

def compactBytes (document : Document) : Option Bytes := (compact document).map (List.map fun c => UInt8.ofNat c.toNat)

def readerOf (document : Document) : SerdeJson where
  toVec := compactBytes
  fromSlice text := if compactBytes document = some text then some document else none

theorem readerOf_reads (document : Document) :
    ∀ text, (readerOf document).toVec document = some text → (readerOf document).fromSlice text = some document :=
  fun _ written => if_pos written

def renameFrame (extensions : Extensions) : JournalFrame where
  frameVersion := 1
  sequence := 1
  baseRevision := 0
  resultingRevision := 1
  operation := "execute"
  batch := ⟨1, "Rename", none, [⟨"mixer", "rename", 1, ⟨.null, trivial⟩, ∅⟩], [], ∅⟩
  extensions := extensions

theorem renameFrame_encoded (extensions : Extensions)
    (accepted : (encodeFrame (readerOf (renameFrame extensions).document) (renameFrame extensions)).isOk = true) :
    ∃ encodings, [renameFrame extensions].mapM (encodeFrame (readerOf (renameFrame extensions).document)) = .ok encodings := by
  cases encoded : encodeFrame (readerOf (renameFrame extensions).document) (renameFrame extensions) with
  | error error =>
    rw [encoded] at accepted
    cases accepted
  | ok encoding =>
    refine ⟨[encoding], ?_⟩
    rw [List.mapM_cons, encoded]
    rfl

theorem renameFrame_recovered : ∃ encodings,
    [renameFrame ∅].mapM (encodeFrame (readerOf (renameFrame ∅).document)) = .ok encodings ∧
      ∀ cut ≤ encodings.flatten.length, RecoversExactly (readerOf (renameFrame ∅).document) [renameFrame ∅] encodings cut := by
  obtain ⟨encodings, encoded⟩ := renameFrame_encoded ∅ (by decide +kernel)
  refine ⟨encodings, encoded, ?_⟩
  refine (torn_writes_recover_iff _ encoded (List.isChain_singleton _) ?_).1.mpr ?_
  · intro frame inside
    rw [List.mem_singleton.mp inside]
    exact fun _ => readerOf_reads _
  · intro frame inside
    rw [List.mem_singleton.mp inside]
    have apart (known : List String) : Extensions.Apart known ∅ := fun _ _ => Std.ExtTreeMap.getElem?_empty
    refine ⟨apart _, apart _, ?_⟩
    intro command only
    rw [List.mem_singleton.mp only]
    exact apart _

def shadowedFrame : JournalFrame :=
  renameFrame ((∅ : Extensions).insert "sequence" ⟨.number (.natural 7), trivial⟩)

theorem shadowed_sequence_not_recovered : ∃ (json : SerdeJson) (frames : List JournalFrame) (encodings : List Bytes) (cut : Nat),
    frames.mapM (encodeFrame json) = .ok encodings ∧ Connected frames ∧
      (∀ frame ∈ frames, ∀ text, json.toVec frame.document = some text → json.fromSlice text = some frame.document) ∧
        cut ≤ encodings.flatten.length ∧ ¬ RecoversExactly json frames encodings cut := by
  obtain ⟨encodings, encoded⟩ := renameFrame_encoded ((∅ : Extensions).insert "sequence" ⟨.number (.natural 7), trivial⟩)
    (by decide +kernel)
  refine ⟨readerOf shadowedFrame.document, [shadowedFrame], encodings, _, encoded, List.isChain_singleton _, ?_, Nat.le_refl _, ?_⟩
  · intro frame inside
    rw [List.mem_singleton.mp inside]
    exact readerOf_reads _
  · intro exact
    have apart := (exact.distinct encoded shadowedFrame (List.mem_singleton_self _)).1
    have held : shadowedFrame.extensions["sequence"]? = some ⟨.number (.natural 7), trivial⟩ :=
      Std.ExtTreeMap.getElem?_insert_self
    rw [apart "sequence" (by decide)] at held
    cases held

end Audec.CommandJournal
