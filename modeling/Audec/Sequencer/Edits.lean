import Audec.Lib.Segments
import Audec.Sequencer.TempoMap

/-! What the editors keep true of a tempo map. -/

open Machine Checked SortedSlice Segments Runs List Option

namespace Audec.Sequencer

variable {map changed : TempoMap}

structure TempoMap.Valid (map : TempoMap) : Prop where
  tempoOrigin : map.tempos.head?.map TempoPoint.at' = some I64.zero
  temposAscending : map.tempos.Pairwise fun point later => point.at' < later.at'
  signatures : ∀ point ∈ map.meters, point.signature.validate = .ok ()
  boundaries : validateMeterBoundaries map.meters = .ok ()

theorem windows_chain {α : Type} {relation : α → α → Prop} {items : List α} (neighbours : ∀ pair ∈ windows items, relation pair.1 pair.2) :
    items.IsChain relation := by
  induction items with
  | nil => exact .nil
  | cons first items tail =>
    cases items with
    | nil => exact .singleton first
    | cons next items =>
      refine .cons_cons (neighbours (first, next) mem_cons_self) (tail ?_)
      intro pair member
      exact neighbours pair (mem_cons_of_mem _ member)

theorem boundaries_ok {points : List MeterPoint} : validateMeterBoundaries points = .ok () ↔
    points.head?.map MeterPoint.at' = some I64.zero ∧ ∀ pair ∈ windows points, pair.1.at' < pair.2.at' ∧
      (pair.2.at'.val - pair.1.at'.val).tmod pair.1.signature.ticksPerBar = 0 := by
  unfold validateMeterBoundaries
  simp only [bind_unit_ok, ensure_ok, forM_ok, not_or, not_le, not_not]

def firstTick : BeatTime := I64.wrap (-0x8000000000000000)

def lastTick : BeatTime := I64.wrap 0x7fffffffffffffff

theorem firstTick_le (tick : BeatTime) : firstTick ≤ tick := tick.lower

theorem le_lastTick (tick : BeatTime) : tick ≤ lastTick := Int.le_of_lt_add_one tick.upper

theorem map_ok {ε α β : Type} {first : Except ε α} {convert : α → β} {result : β} :
    first.map convert = .ok result ↔ ∃ value, first = .ok value ∧ convert value = result := by
  cases first <;> simp [Except.map]

namespace TempoMap

theorem Valid.metersAscending (valid : map.Valid) : map.meters.Pairwise fun point later => point.at' < later.at' := by
  have chain : map.meters.IsChain fun point later => point.at' < later.at' :=
    windows_chain fun pair member => ((boundaries_ok.mp valid.boundaries).2 pair member).1
  have : IsTrans MeterPoint fun point later => point.at' < later.at' := ⟨fun _ _ _ => lt_trans⟩
  exact isChain_iff_pairwise.mp chain

variable {tempo : Tempo} {at' : BeatTime} {signature : TimeSignature}

variable {meter : TimeSignature} {sampleRate : U32} {removed : Option TimeSignature}

theorem new_ok : TempoMap.new sampleRate tempo meter = .ok map ↔
    sampleRate.val ≠ 0 ∧ tempo.validate = .ok () ∧ meter.validate = .ok () ∧ ⟨sampleRate, [⟨I64.zero, tempo⟩], [⟨I64.zero, meter⟩]⟩ = map := by
  unfold TempoMap.new
  simp only [bind_unit_ok, ensure_ok, Except.ok.injEq]

theorem new_valid (fresh : TempoMap.new sampleRate tempo meter = .ok map) :
    map.Valid := by
  obtain ⟨-, -, accepted, rfl⟩ := new_ok.mp fresh
  refine ⟨rfl, pairwise_singleton _ _, ?_, ?_⟩
  · intro point member
    rw [mem_singleton.mp member]
    exact accepted
  · exact boundaries_ok.mpr ⟨rfl, fun pair member => absurd member not_mem_nil⟩

theorem setTempo_valid (valid : map.Valid) (accepted : map.setTempo at' tempo = .ok changed) :
    changed.Valid := by
  unfold setTempo at accepted
  obtain ⟨ahead, -, accepted⟩ : 0 ≤ at'.val ∧ _ ∧ _ := by simpa only [bind_unit_ok, ensure_ok] using accepted
  have origin := valid.tempoOrigin
  have ascending := valid.temposAscending
  split at accepted
  · rename_i index search
    obtain ⟨below, old, above, same, length, -⟩ := found search
    cases accepted
    have replaced : map.tempos.modify index (fun point => { point with tempo }) = below ++ { old with tempo } :: above := by
      rw [same, ← length, modify_found]
    rw [same] at origin ascending
    refine { valid with tempoOrigin := ?_, temposAscending := ?_ }
    · show (map.tempos.modify index _).head?.map TempoPoint.at' = _
      rw [replaced]
      cases below with
      | nil => exact origin
      | cons head below => exact origin
    · show (map.tempos.modify index _).Pairwise _
      rw [replaced]
      exact @replace_sorted _ _ _ TempoPoint.at' below above old { old with tempo } rfl ascending
  · rename_i index search
    obtain ⟨below, above, same, length, smaller, larger⟩ := missing ascending search
    cases accepted
    have inserted : map.tempos.insertIdx index ⟨at', tempo⟩ = below ++ ⟨at', tempo⟩ :: above := by
      rw [same, ← length, insert_missing]
    rw [same] at origin ascending
    refine { valid with tempoOrigin := ?_, temposAscending := ?_ }
    · show (map.tempos.insertIdx index _).head?.map TempoPoint.at' = _
      rw [inserted]
      cases below with
      | nil =>
        -- No point lies before the origin, so an inserted one is never the first.
        cases above with
        | nil => cases origin
        | cons head above =>
          have zero : head.at' = I64.zero := some.inj origin
          have before : at'.val < head.at'.val := larger head mem_cons_self
          rw [zero] at before
          exact absurd before (not_lt.mpr ahead)
      | cons head below => exact origin
    · show (map.tempos.insertIdx index _).Pairwise _
      rw [inserted]
      exact insert_sorted ascending smaller larger

theorem removeTempo_ok {removed : Option Tempo} (accepted : map.removeTempo at' = .ok (changed, removed)) :
    at' ≠ I64.zero ∧ ∃ index, binarySearchByKey map.tempos at' TempoPoint.at' = .ok index ∧
      { map with tempos := map.tempos.eraseIdx index } = changed := by
  unfold removeTempo at accepted
  obtain ⟨later, accepted⟩ : at' ≠ I64.zero ∧ _ := by simpa only [bind_unit_ok, ensure_ok] using accepted
  split at accepted
  · rename_i index search
    cases accepted
    exact ⟨later, index, search, rfl⟩
  · cases accepted

theorem removeTempo_valid {removed : Option Tempo} (valid : map.Valid)
    (accepted : map.removeTempo at' = .ok (changed, removed)) : changed.Valid := by
  obtain ⟨later, index, search, rfl⟩ := removeTempo_ok accepted
  obtain ⟨below, old, above, same, length, here⟩ := found search
  have erased : map.tempos.eraseIdx index = below ++ above := by
    rw [same, ← length, eraseIdx_append_of_length_le le_rfl, Nat.sub_self, eraseIdx_cons_zero]
  have origin := valid.tempoOrigin
  refine { valid with tempoOrigin := ?_, temposAscending := ?_ }
  · show (map.tempos.eraseIdx index).head?.map TempoPoint.at' = _
    rw [erased]
    rw [same] at origin
    cases below with
    | nil => exact absurd (here.symm.trans (some.inj origin)) later
    | cons head below => exact origin
  · exact valid.temposAscending.sublist (eraseIdx_sublist _ _)

theorem removeMeter_ok (accepted : map.removeMeter at' = .ok (changed, removed)) :
    ∃ index, binarySearchByKey map.meters at' MeterPoint.at' = .ok index ∧ validateMeterBoundaries (map.meters.eraseIdx index) = .ok () ∧
      { map with meters := map.meters.eraseIdx index } = changed := by
  unfold removeMeter at accepted
  obtain ⟨-, accepted⟩ : at' ≠ I64.zero ∧ _ := by simpa only [bind_unit_ok, ensure_ok] using accepted
  split at accepted
  · rename_i index search
    obtain ⟨boundaries, accepted⟩ := bind_unit_ok.mp accepted
    cases accepted
    exact ⟨index, search, boundaries, rfl⟩
  · cases accepted

theorem mem_meterCandidate {point : MeterPoint} (member : point ∈ map.meterCandidate at' signature) :
    point ∈ map.meters ∨ point.signature = signature := by
  unfold meterCandidate at member
  split at member
  · obtain ⟨place, inside, rfl⟩ := mem_iff_getElem.mp member
    rw [getElem_modify]
    split
    · exact .inr rfl
    · exact .inl (getElem_mem _)
  · rcases eq_or_mem_of_mem_insertIdx member with rfl | member
    · exact .inr rfl
    · exact .inl member

theorem setMeter_ok : map.setMeter at' signature = .ok changed ↔
    0 ≤ at'.val ∧ signature.validate = .ok () ∧ validateMeterBoundaries (map.meterCandidate at' signature) = .ok () ∧
      { map with meters := map.meterCandidate at' signature } = changed := by
  unfold setMeter
  simp only [bind_unit_ok, ensure_ok, Except.ok.injEq]

theorem setMeter_valid (valid : map.Valid) (accepted : map.setMeter at' signature = .ok changed) :
    changed.Valid := by
  obtain ⟨-, proper, boundaries, rfl⟩ := setMeter_ok.mp accepted
  refine { valid with signatures := ?_, boundaries := boundaries }
  intro point member
  rcases mem_meterCandidate member with old | fresh
  · exact valid.signatures point old
  · rw [fresh]
    exact proper

theorem removeMeter_valid (valid : map.Valid)
    (accepted : map.removeMeter at' = .ok (changed, removed)) : changed.Valid := by
  obtain ⟨index, -, boundaries, rfl⟩ := removeMeter_ok accepted
  refine { valid with signatures := ?_, boundaries := boundaries }
  exact fun point member => valid.signatures point (mem_of_mem_eraseIdx member)

theorem edit_valid (valid : map.Valid) (action : TempoMapEdit) : (map.edit action).Valid := by
  unfold edit
  split
  · rename_i changed accepted
    cases action with
    | setTempo at' tempo => exact setTempo_valid valid accepted
    | removeTempo at' =>
      obtain ⟨⟨after, removed⟩, done, rfl⟩ := map_ok.mp accepted
      exact removeTempo_valid valid done
    | setMeter at' signature => exact setMeter_valid valid accepted
    | removeMeter at' =>
      obtain ⟨⟨after, removed⟩, done, rfl⟩ := map_ok.mp accepted
      exact removeMeter_valid valid done
  · exact valid

theorem reached_valid {events : List (Event TempoMap TempoMapEdit)} (run : Run TempoMap.edit Fresh events map) : map.Valid := by
  induction run with
  | start init =>
    obtain ⟨sampleRate, tempo, meter, fresh⟩ := init
    exact new_valid fresh
  | step run action ih => exact edit_valid ih action

/-- Four quarters to the bar, and from the third bar on three. -/
def straight : TempoMap := ⟨48000, [⟨I64.zero, ⟨500000⟩⟩], [⟨I64.zero, ⟨4, 4⟩⟩]⟩

def waltzing : TempoMap := straight.edit (.setMeter (I64.wrap 7680) ⟨3, 4⟩)

theorem straight_fresh : Fresh straight := ⟨48000, ⟨500000⟩, ⟨4, 4⟩, new_ok.mpr ⟨by decide, by decide, by decide, rfl⟩⟩

end TempoMap

end Audec.Sequencer
