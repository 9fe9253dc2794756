import Audec.Broker.Ledger

/-! The demands of the active jobs together, and when they stay within the capacity. -/

open Machine Checked Entries Weights List
open Std (ExtTreeMap LawfulEqCmp)

namespace Audec.Broker.WorkerBroker

section

variable (demand : ResourceDemand)

def cpuOf : Nat := demand.cpuSlots.val

def memoryOf : Nat := demand.memoryBytes.val

def scratchOf : Nat := demand.scratchBytes.val

end

def usesOf (accelerator : String) (demand : ResourceDemand) : Nat := if demand.accelerator = some accelerator then 1 else 0

def total (broker : WorkerBroker) (measure : ResourceDemand → Nat) : Nat := weigh (fun job => measure job.ticket.demand) broker.active

/-- The active jobs together demand no more than there is. -/
structure Within (broker : WorkerBroker) : Prop where
  cpu : broker.total cpuOf ≤ broker.capacity.cpuSlots.val
  memory : broker.total memoryOf ≤ broker.capacity.memoryBytes.val
  scratch : broker.total scratchOf ≤ broker.capacity.scratchBytes.val
  accelerators : ∀ accelerator, broker.total (usesOf accelerator) ≤ (broker.capacity.accelerators[accelerator]?.getD 0).val
  workers : broker.active.size ≤ broker.capacity.workerSlots.val

section Usage

structure Sums (demands : List ResourceDemand) (usage : ResourceUsage) : Prop where
  cpu : usage.cpuSlots.val = (demands.map cpuOf).sum
  memory : usage.memoryBytes.val = (demands.map memoryOf).sum
  scratch : usage.scratchBytes.val = (demands.map scratchOf).sum
  accelerators : ∀ accelerator, (usage.accelerators[accelerator]?.getD 0).val = (demands.map (usesOf accelerator)).sum

structure Representable (demands : List ResourceDemand) : Prop where
  cpu : (demands.map cpuOf).sum < 0x10000
  memory : (demands.map memoryOf).sum < 0x10000000000000000
  scratch : (demands.map scratchOf).sum < 0x10000000000000000
  workers : demands.length < 0x10000

theorem checkedAdd_eq {bound : Nat} {a b : Fin bound} (fits : a.val + b.val < bound) : checkedAdd a b = some ⟨a.val + b.val, fits⟩ := dif_pos fits

theorem uses_le_length (accelerator : String) (demands : List ResourceDemand) :
    (demands.map (usesOf accelerator)).sum ≤ demands.length := by
  induction demands with
  | nil => exact le_rfl
  | cons demand demands tail =>
    rw [map_cons, sum_cons, length_cons, usesOf]
    split <;> omega

variable {demands : List ResourceDemand} {usage : ResourceUsage}

theorem checkedAddTo_sums {demand : ResourceDemand} (sums : Sums demands usage)
    (representable : Representable (demands ++ [demand])) :
    ∃ after, checkedAddTo demand usage = some after ∧ Sums (demands ++ [demand]) after := by
  obtain ⟨cpu, memory, scratch, workers⟩ := representable
  simp only [map_append, map_singleton, sum_append, sum_singleton, length_append, length_singleton,
    ← sums.cpu, ← sums.memory, ← sums.scratch] at cpu memory scratch workers
  unfold checkedAddTo
  rw [checkedAdd_eq cpu, checkedAdd_eq memory, checkedAdd_eq scratch]
  refine ⟨_, rfl, ?_, ?_, ?_, fun accelerator => ?_⟩
  · simp only [map_append, map_singleton, sum_append, sum_singleton, ← sums.cpu, cpuOf]
  · simp only [map_append, map_singleton, sum_append, sum_singleton, ← sums.memory, memoryOf]
  · simp only [map_append, map_singleton, sum_append, sum_singleton, ← sums.scratch, scratchOf]
  · have bound := uses_le_length accelerator demands
    have used := sums.accelerators accelerator
    simp only [map_append, map_singleton, sum_append, sum_singleton, usesOf]
    cases demand.accelerator with
    | none =>
      rw [if_neg nofun]
      exact used
    | some other =>
      dsimp only
      rw [lookup_insert]
      by_cases same : other = accelerator
      · subst same
        rw [if_pos rfl, if_pos rfl, Option.getD_some]
        change (_ + 1) % 0x10000 = _
        rw [used, Nat.mod_eq_of_lt (by omega)]
      · rw [if_neg same, if_neg (fun alike => same (Option.some.inj alike))]
        exact used

theorem Representable.init {more : List ResourceDemand} (representable : Representable (demands ++ more)) : Representable demands := by
  obtain ⟨cpu, memory, scratch, workers⟩ := representable
  simp only [map_append, sum_append, length_append] at cpu memory scratch workers
  exact ⟨by omega, by omega, by omega, by omega⟩

theorem foldl_sums {counted : List ResourceDemand} {jobs : List ActiveJob} (sums : Sums counted usage)
    (representable : Representable (counted ++ jobs.map fun job => job.ticket.demand)) :
    Sums (counted ++ jobs.map fun job => job.ticket.demand)
      (jobs.foldl (fun usage job => (checkedAddTo job.ticket.demand usage).getD usage) usage) := by
  induction jobs generalizing counted usage with
  | nil =>
    rw [map_nil, append_nil]
    exact sums
  | cons job jobs tail =>
    rw [map_cons, append_cons] at representable ⊢
    obtain ⟨after, added, sums'⟩ := checkedAddTo_sums sums representable.init
    rw [foldl_cons, added, Option.getD_some]
    exact tail sums' representable

end Usage

variable {broker : WorkerBroker}

def demands (broker : WorkerBroker) : List ResourceDemand := (values broker.active).map fun job => job.ticket.demand

theorem total_eq (measure : ResourceDemand → Nat) : broker.total measure = (broker.demands.map measure).sum := by
  unfold total demands values weigh
  rw [map_map, map_map]
  rfl

theorem demands_length : broker.demands.length = broker.active.size := by
  unfold demands values
  rw [length_map, length_map, ExtTreeMap.length_toList]

theorem Within.usage (within : broker.Within) : Sums broker.demands broker.resourceUsage := by
  have representable : Representable broker.demands := by
    refine ⟨?_, ?_, ?_, ?_⟩
    · rw [← total_eq]
      exact within.cpu.trans_lt broker.capacity.cpuSlots.isLt
    · rw [← total_eq]
      exact within.memory.trans_lt broker.capacity.memoryBytes.isLt
    · rw [← total_eq]
      exact within.scratch.trans_lt broker.capacity.scratchBytes.isLt
    · rw [demands_length]
      exact within.workers.trans_lt broker.capacity.workerSlots.isLt
  have none : Sums [] ⟨0, 0, 0, ∅⟩ := by
    refine ⟨rfl, rfl, rfl, fun accelerator => ?_⟩
    rw [ExtTreeMap.getElem?_empty]
    rfl
  exact foldl_sums none representable

/-- The sums with one more demand are within the machine words. -/
structure Room (broker : WorkerBroker) (demand : ResourceDemand) : Prop where
  cpu : broker.total cpuOf + cpuOf demand < 0x10000
  memory : broker.total memoryOf + memoryOf demand < 0x10000000000000000
  scratch : broker.total scratchOf + scratchOf demand < 0x10000000000000000

instance (broker : WorkerBroker) (demand : ResourceDemand) : Decidable (broker.Room demand) :=
  decidable_of_iff (_ ∧ _ ∧ _) ⟨fun ⟨cpu, memory, scratch⟩ => ⟨cpu, memory, scratch⟩, fun room => ⟨room.cpu, room.memory, room.scratch⟩⟩

variable {bound : Nat} {now : BrokerTick} {pressure : ForegroundPressure}

theorem saturatingAdd_val [NeZero bound] {a b : Fin bound} (fits : a.val + b.val < bound) :
    (saturatingAdd a b).val = a.val + b.val := by
  change min (a.val + b.val) (bound - 1) % bound = _
  rw [Nat.min_eq_left (by omega), Nat.mod_eq_of_lt fits]

theorem saturatingSub_le [NeZero bound] (a b : Fin bound) : (saturatingSub a b).val ≤ a.val :=
  (Nat.mod_le _ _).trans (Nat.sub_le _ _)

section Admission

variable (now : BrokerTick) {index : Fin broker.queued.length}

section

variable (sound : broker.Sound)
include sound

theorem admission_total (measure : ResourceDemand → Nat) :
    (broker.admission now index).total measure = measure (broker.queued.get index).ticket.demand + broker.total measure := by
  have absent : broker.active[(broker.queued.get index).ticket.identity]? = none := by
    rw [← Option.not_isSome_iff_eq_none, ← ExtTreeMap.mem_iff_isSome_getElem?]
    exact (sound.queued_only index).1
  unfold total admission
  rw [weigh_insert, erase_absent absent]

theorem admission_size : (broker.admission now index).active.size = broker.active.size + 1 := by
  unfold admission
  rw [ExtTreeMap.size_insert, if_neg (by rw [ExtTreeMap.contains_iff_mem]; exact (sound.queued_only index).1)]

theorem admission_within {pressure : ForegroundPressure} (within : broker.Within)
    (fits : broker.fits (broker.queued.get index).ticket.demand broker.resourceUsage pressure = true)
    (room : broker.Room (broker.queued.get index).ticket.demand) : (broker.admission now index).Within := by
  obtain ⟨cpu, memory, scratch, accelerators⟩ := within.usage
  obtain ⟨roomCpu, roomMemory, roomScratch⟩ := room
  rw [← total_eq] at cpu memory scratch
  unfold WorkerBroker.fits at fits
  simp only [Bool.and_eq_true, decide_eq_true_eq, and_assoc] at fits
  obtain ⟨workers, fitsCpu, fitsMemory, fitsScratch, fitsAccelerator⟩ := fits
  refine ⟨?_, ?_, ?_, fun accelerator => ?_, ?_⟩
  · rw [admission_total now sound]
    have bound := (Fin.le_def.mp fitsCpu).trans (saturatingSub_le _ _)
    rw [saturatingAdd_val (by rw [cpu]; exact roomCpu), cpu] at bound
    exact (Nat.add_comm _ _).trans_le bound
  · rw [admission_total now sound]
    have bound := (Fin.le_def.mp fitsMemory).trans (saturatingSub_le _ _)
    rw [saturatingAdd_val (by rw [memory]; exact roomMemory), memory] at bound
    exact (Nat.add_comm _ _).trans_le bound
  · rw [admission_total now sound]
    have bound := Fin.le_def.mp fitsScratch
    rw [saturatingAdd_val (by rw [scratch]; exact roomScratch), scratch] at bound
    exact (Nat.add_comm _ _).trans_le bound
  · rw [admission_total now sound, usesOf]
    split
    · rename_i uses
      rw [uses, Option.all_some, decide_eq_true_eq, Fin.lt_def, accelerators, ← total_eq] at fitsAccelerator
      exact (Nat.add_comm _ _).trans_le fitsAccelerator
    · exact (Nat.zero_add _).trans_le (within.accelerators accelerator)
  · rw [admission_size now sound]
    exact workers

theorem admission_exceeds (within : (broker.admission now index).Within) :
    broker.Room (broker.queued.get index).ticket.demand := by
  obtain ⟨cpu, memory, scratch, -, -⟩ := within
  rw [admission_total now sound, Nat.add_comm] at cpu memory scratch
  exact ⟨cpu.trans_lt (Fin.isLt _), memory.trans_lt (Fin.isLt _), scratch.trans_lt (Fin.isLt _)⟩

theorem within_of_admission (within : (broker.admission now index).Within) : broker.Within := by
  obtain ⟨cpu, memory, scratch, accelerators, workers⟩ := within
  simp only [admission_total now sound, admission_size now sound] at cpu memory scratch accelerators workers
  exact ⟨le_of_add_le_right cpu, le_of_add_le_right memory, le_of_add_le_right scratch,
    fun accelerator => le_of_add_le_right (accelerators accelerator), (Nat.le_succ _).trans workers⟩

end

end Admission

/-- No round of a scheduling lets a sum pass its machine word. -/
def CarefulLoop (now : BrokerTick) (pressure : ForegroundPressure) : Nat → WorkerBroker → Prop
  | 0, _ => True
  | fuel + 1, broker =>
    ∀ index ∈ (broker.candidates now pressure).head?,
      broker.Room (broker.queued.get index).ticket.demand ∧ CarefulLoop now pressure fuel (broker.admission now index)

theorem scheduleLoop_within_before (fuel : Nat) (sound : broker.Sound)
    (within : (scheduleLoop now pressure fuel broker).1.Within) : broker.Within := by
  induction fuel generalizing broker with
  | zero => exact within
  | succ fuel ih =>
    unfold scheduleLoop at within
    split at within
    · exact within
    · exact within_of_admission now sound (ih (admission_sound now _ sound) within)

theorem scheduleLoop_within_iff (fuel : Nat) (sound : broker.Sound) (within : broker.Within) :
    (scheduleLoop now pressure fuel broker).1.Within ↔ CarefulLoop now pressure fuel broker := by
  induction fuel generalizing broker with
  | zero => exact iff_of_true within trivial
  | succ fuel ih =>
    unfold scheduleLoop CarefulLoop
    split
    · rename_i none
      rw [none]
      exact iff_of_true within nofun
    · rename_i index first
      have fits := mem_candidates.mp (mem_of_head? first)
      have sound' := admission_sound now index sound
      simp only [first, Option.mem_some_iff, forall_eq']
      constructor
      · intro after
        have within' := scheduleLoop_within_before fuel sound' after
        exact ⟨admission_exceeds now sound within', (ih sound' within').mp after⟩
      · rintro ⟨room, careful⟩
        exact (ih sound' (admission_within now sound within fits room)).mpr careful

section Fewer

variable {after : WorkerBroker}

theorem Within.erase {identity : JobIdentity} (within : broker.Within) (capacity : after.capacity = broker.capacity)
    (active : after.active = broker.active.erase identity) : after.Within := by
  have fewer (measure : ResourceDemand → Nat) : after.total measure ≤ broker.total measure := by
    unfold total
    rw [active, weigh_erase _ broker.active identity]
    exact Nat.le_add_left _ _
  refine ⟨?_, ?_, ?_, fun accelerator => ?_, ?_⟩ <;> rw [capacity]
  · exact (fewer _).trans within.cpu
  · exact (fewer _).trans within.memory
  · exact (fewer _).trans within.scratch
  · exact (fewer _).trans (within.accelerators accelerator)
  · rw [active]
    exact ExtTreeMap.size_erase_le.trans within.workers

theorem size_eq_weigh (jobs : Jobs) : jobs.size = weigh (fun _ => 1) jobs := by
  unfold weigh
  rw [map_const', sum_replicate, ExtTreeMap.length_toList, smul_eq_mul, Nat.mul_one]

theorem Within.adjust (within : broker.Within) (capacity : after.capacity = broker.capacity)
    (adjusted : Adjusted broker.active after.active) : after.Within := by
  have tickets (weight : JobTicket → Nat) :
      weigh (fun job => weight job.ticket) after.active = weigh (fun job => weight job.ticket) broker.active := by
    apply weigh_congr
    intro identity
    have related := adjusted identity
    cases held : broker.active[identity]? with
    | none =>
      rw [held] at related
      cases held' : after.active[identity]? with
      | none => rfl
      | some job => rw [held'] at related; cases related
    | some job =>
      obtain ⟨job', found, follows⟩ := adjusted.kept held
      rw [found, Option.map_some, Option.map_some, follows.ticket]
  have totals (measure : ResourceDemand → Nat) : after.total measure = broker.total measure := tickets fun ticket => measure ticket.demand
  have size : after.active.size = broker.active.size := by
    rw [size_eq_weigh, size_eq_weigh]
    exact tickets fun _ => 1
  refine ⟨?_, ?_, ?_, fun accelerator => ?_, ?_⟩ <;> rw [capacity]
  · exact (totals _).trans_le within.cpu
  · exact (totals _).trans_le within.memory
  · exact (totals _).trans_le within.scratch
  · exact (totals _).trans_le (within.accelerators accelerator)
  · exact size.trans_le within.workers

theorem Change.within (change : Change broker after) (within : broker.Within) : after.Within := by
  cases change with
  | adjust adjusted => exact within.adjust rfl adjusted
  | withdraw => exact within.adjust rfl Adjusted.rfl
  | retire => exact within.erase rfl rfl

end Fewer

/-- The step is taken without passing a machine word: of a sum when a job is admitted, of the number of receipts when one is given out. -/
def Careful (broker : WorkerBroker) : Action → Prop
  | .schedule now pressure => CarefulLoop now pressure broker.queued.length broker
  | .acceptCompletion attempt _ => broker.Completable attempt → broker.completed.size < 0x10000000000000000
  | _ => True

theorem Effect.within {action : Action} (effect : Effect broker action) (sound : broker.Sound) (within : broker.Within)
    (careful : broker.Careful action) : (broker.perform action).Within := by
  cases effect with
  | submits _ _ _ _ _ submitted =>
    rw [submitted.leads]
    exact within.adjust rfl Adjusted.rfl
  | completes _ _ _ _ _ _ completed =>
    rw [completed.leads]
    exact within.erase rfl rfl
  | schedules now pressure same =>
    subst same
    exact (scheduleLoop_within_iff _ sound within).mpr careful
  | changes _ _ _ changes =>
    rcases (Relation.reflGen_iff _ _ _).mp changes with same | change
    · rw [same]
      exact within
    · exact change.within within

theorem Fresh.within {capacity : BrokerCapacity} (fresh : Fresh capacity broker) : broker.Within := by
  have nothing (measure : ResourceDemand → Nat) : broker.total measure = 0 := by
    unfold total
    rw [fresh.active, weigh_empty]
  refine ⟨?_, ?_, ?_, fun accelerator => ?_, ?_⟩
  · exact (nothing _).trans_le (Nat.zero_le _)
  · exact (nothing _).trans_le (Nat.zero_le _)
  · exact (nothing _).trans_le (Nat.zero_le _)
  · exact (nothing _).trans_le (Nat.zero_le _)
  · rw [fresh.active]
    exact Nat.zero_le _

end Audec.Broker.WorkerBroker
