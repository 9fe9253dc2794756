import Audec.Broker.Accounts

/-! What a broker takes from its jobs when audio or a render needs the machine. -/

open Machine Checked Entries Runs List
open Std (ExtTreeMap LawfulEqCmp)

namespace Audec.Broker.WorkerBroker

def yielding (broker : WorkerBroker) : List (JobIdentity × ActiveJob) :=
  (broker.active.toList.filter fun entry => isUnderway entry.2).insertionSort Yields

def stopOf (entry : JobIdentity × ActiveJob) : BrokerAction :=
  match entry.2.state with
  | .starting => .kill entry.1 .foregroundPressure
  | .running | .cancelRequested _ | .killRequested _ => .sendCancel entry.1 .foregroundPressure

def stopping (now : BrokerTick) (job : ActiveJob) : ActiveJob :=
  match job.state with
  | .starting => escalate job now (.killRequested .foregroundPressure)
  | .running | .cancelRequested _ | .killRequested _ => escalate job now (.cancelRequested .foregroundPressure)

def cpuAmong (jobs : List (JobIdentity × ActiveJob)) : Nat := (jobs.map fun entry => cpuOf entry.2.ticket.demand).sum

def memoryAmong (jobs : List (JobIdentity × ActiveJob)) : Nat := (jobs.map fun entry => memoryOf entry.2.ticket.demand).sum

/-- A usage less the demands of some jobs is no more than a maximum. -/
def Frees (maximumCpu : U16) (maximumMemory : U64) (cpuSlots : U16) (memoryBytes : U64) (jobs : List (JobIdentity × ActiveJob)) : Prop :=
  cpuSlots.val - cpuAmong jobs ≤ maximumCpu.val ∧ memoryBytes.val - memoryAmong jobs ≤ maximumMemory.val

def LeavesReserve (broker : WorkerBroker) (pressure : ForegroundPressure) (jobs : List (JobIdentity × ActiveJob)) : Prop :=
  Frees (saturatingSub broker.capacity.cpuSlots (cpuReserve broker.capacity pressure))
    (saturatingSub broker.capacity.memoryBytes (memoryReserve broker.capacity pressure))
    broker.resourceUsage.cpuSlots broker.resourceUsage.memoryBytes jobs

section Reclaiming

variable {now : BrokerTick} {maximumCpu : U16} {maximumMemory : U64}

variable {job : ActiveJob} {jobs : List (JobIdentity × ActiveJob)}

theorem isUnderway_iff : isUnderway job = true ↔ job.state = .starting ∨ job.state = .running := by
  unfold isUnderway
  rw [Bool.or_eq_true, decide_eq_true_eq, decide_eq_true_eq]

theorem ending_underway {identity : JobIdentity} (underway : isUnderway job = true) :
    ending identity job now .foregroundPressure = some (stopping now job, stopOf (identity, job)) := by
  unfold ending stopping stopOf
  rcases isUnderway_iff.mp underway with starting | running
  · rw [starting]
  · rw [running]

theorem not_underway_stopping (job : ActiveJob) : isUnderway (stopping now job) = false := by
  unfold stopping
  split <;> rfl

theorem stopping_ticket (job : ActiveJob) : (stopping now job).ticket = job.ticket := by
  unfold stopping
  split <;> rfl

theorem frees_cons {cpuSlots : U16} {memoryBytes : U64} {entry : JobIdentity × ActiveJob} :
    Frees maximumCpu maximumMemory cpuSlots memoryBytes (entry :: jobs) ↔
      Frees maximumCpu maximumMemory (saturatingSub cpuSlots entry.2.ticket.demand.cpuSlots)
        (saturatingSub memoryBytes entry.2.ticket.demand.memoryBytes) jobs := by
  unfold Frees cpuAmong memoryAmong
  rw [saturatingSub_val, saturatingSub_val, map_cons, map_cons, sum_cons, sum_cons, Nat.sub_sub, Nat.sub_sub]
  rfl

def stopAll (now : BrokerTick) (jobs : List (JobIdentity × ActiveJob)) (active : ExtTreeMap JobIdentity ActiveJob) :
    ExtTreeMap JobIdentity ActiveJob :=
  jobs.foldl (fun active entry => active.insert entry.1 (stopping now entry.2)) active

structure Reclaimed (now : BrokerTick) (maximumCpu : U16) (maximumMemory : U64) (jobs : List (JobIdentity × ActiveJob)) (cpuSlots : U16)
    (memoryBytes : U64) (broker after : WorkerBroker) (actions : List BrokerAction) : Prop where
  told : actions = (jobs.take actions.length).map stopOf
  marked : after = { broker with active := stopAll now (jobs.take actions.length) broker.active }
  enough : Frees maximumCpu maximumMemory cpuSlots memoryBytes (jobs.take actions.length) ∨ jobs.drop actions.length = []
  least : ∀ fewer < actions.length, ¬ Frees maximumCpu maximumMemory cpuSlots memoryBytes (jobs.take fewer)

theorem reclaim_reclaimed (underway : ∀ entry ∈ jobs, isUnderway entry.2 = true) (cpuSlots : U16)
    (memoryBytes : U64) (broker : WorkerBroker) :
    Reclaimed now maximumCpu maximumMemory jobs cpuSlots memoryBytes broker (reclaim now maximumCpu maximumMemory jobs cpuSlots memoryBytes broker).1
      (reclaim now maximumCpu maximumMemory jobs cpuSlots memoryBytes broker).2 := by
  induction jobs generalizing cpuSlots memoryBytes broker with
  | nil => exact ⟨rfl, rfl, .inr rfl, fun fewer less => absurd less (Nat.not_lt_zero _)⟩
  | cons entry jobs ih =>
    obtain ⟨identity, job⟩ := entry
    unfold reclaim
    split
    · rename_i fits
      exact ⟨rfl, rfl, .inl fits, fun fewer less => absurd less (Nat.not_lt_zero _)⟩
    · rename_i exceeds
      have rest := ih (fun entry member => underway entry (mem_cons_of_mem _ member)) (saturatingSub cpuSlots job.ticket.demand.cpuSlots)
        (saturatingSub memoryBytes job.ticket.demand.memoryBytes) { broker with active := broker.active.insert identity (stopping now job) }
      rw [ending_underway (underway _ mem_cons_self)]
      dsimp only at rest ⊢
      generalize reclaim now maximumCpu maximumMemory jobs _ _ _ = result at rest ⊢
      obtain ⟨after, actions⟩ := result
      refine ⟨?_, rest.marked, ?_, fun fewer less => ?_⟩
      · rw [length_cons, take_succ_cons, map_cons, ← rest.told]
      · rw [length_cons, take_succ_cons, drop_succ_cons, frees_cons]
        exact rest.enough
      · cases fewer with
        | zero => exact exceeds
        | succ fewer =>
          rw [take_succ_cons, frees_cons]
          exact rest.least fewer (Nat.lt_of_succ_lt_succ less)

end Reclaiming

section Yielding

variable {broker : WorkerBroker}

theorem mem_yielding {entry : JobIdentity × ActiveJob} :
    entry ∈ broker.yielding ↔ broker.active[entry.1]? = some entry.2 ∧ isUnderway entry.2 = true := by
  unfold yielding
  rw [mem_insertionSort, mem_filter, mem_toList]

section

variable (broker) (now : BrokerTick) (pressure : ForegroundPressure)
include broker now pressure

theorem protectForeground_reclaimed :
    Reclaimed now (saturatingSub broker.capacity.cpuSlots (cpuReserve broker.capacity pressure))
      (saturatingSub broker.capacity.memoryBytes (memoryReserve broker.capacity pressure)) broker.yielding
      broker.resourceUsage.cpuSlots broker.resourceUsage.memoryBytes broker (broker.protectForeground now pressure).1
      (broker.protectForeground now pressure).2 :=
  reclaim_reclaimed (fun _ member => (mem_yielding.mp member).2) _ _ _

theorem protectForeground_quiet :
    (broker.protectForeground now pressure).2 = [] ↔ broker.LeavesReserve pressure [] ∨ broker.yielding = [] := by
  have reclaimed := protectForeground_reclaimed broker now pressure
  constructor
  · intro quiet
    have enough := reclaimed.enough
    rw [quiet] at enough
    exact enough
  · intro met
    rw [← length_eq_zero_iff]
    rcases met with fits | none
    · by_contra some
      exact reclaimed.least 0 (Nat.pos_of_ne_zero some) fits
    · have told := congrArg List.length reclaimed.told
      rw [none, take_nil] at told
      exact told

end

/-- Every active job is charged, whatever it has been told. -/
theorem resourceUsage_congr {other : WorkerBroker} (same : ∀ identity : JobIdentity,
      other.active[identity]?.map (fun job => job.ticket.demand) = broker.active[identity]?.map fun job => job.ticket.demand) :
    other.resourceUsage = broker.resourceUsage := by
  have demands : (other.active.map fun _ job => job.ticket.demand) = broker.active.map fun _ job => job.ticket.demand := by
    refine ExtTreeMap.ext_getElem? fun identity => ?_
    rw [ExtTreeMap.getElem?_map, ExtTreeMap.getElem?_map, same]
  have folded (broker : WorkerBroker) : broker.resourceUsage =
      ((broker.active.map fun _ job => job.ticket.demand).toList.map Prod.snd).foldl
        (fun usage demand => (checkedAddTo demand usage).getD usage) ⟨0, 0, 0, ∅⟩ := by
    unfold resourceUsage values
    rw [ExtTreeMap.toList_map, map_map, foldl_map, foldl_map]
    rfl
  rw [folded, folded, demands]

section Stopped

variable {now : BrokerTick} {jobs : List (JobIdentity × ActiveJob)}

theorem lookup_stopAll_absent (active : ExtTreeMap JobIdentity ActiveJob) {identity : JobIdentity}
    (absent : identity ∉ jobs.map Prod.fst) : (stopAll now jobs active)[identity]? = active[identity]? :=
  lookup_foldl_absent (fun active identity job => active.insert identity (stopping now job)) (fun _ job => some (stopping now job))
    (fun _ _ _ _ => lookup_insert _ _ _ _) active absent

theorem lookup_stopAll_present (now : BrokerTick) (active : ExtTreeMap JobIdentity ActiveJob) (distinct : (jobs.map Prod.fst).Nodup)
    {entry : JobIdentity × ActiveJob} (present : entry ∈ jobs) : (stopAll now jobs active)[entry.1]? = some (stopping now entry.2) :=
  lookup_foldl_present (fun active identity job => active.insert identity (stopping now job)) (fun _ job => some (stopping now job))
    (fun _ _ _ _ => lookup_insert _ _ _ _) distinct active present

theorem stopAll_demand (distinct : (jobs.map Prod.fst).Nodup) (held : ∀ entry ∈ jobs, broker.active[entry.1]? = some entry.2)
    (identity : JobIdentity) : (stopAll now jobs broker.active)[identity]?.map (fun job => job.ticket.demand) =
      broker.active[identity]?.map fun job => job.ticket.demand := by
  by_cases present : identity ∈ jobs.map Prod.fst
  · obtain ⟨entry, member, rfl⟩ := mem_map.mp present
    rw [lookup_stopAll_present _ _ distinct member, held entry member, Option.map_some, Option.map_some, stopping_ticket]
  · rw [lookup_stopAll_absent _ present]

end Stopped

theorem yielding_stopAll (broker : WorkerBroker) (now : BrokerTick) (count : Nat) :
    yielding { broker with active := stopAll now (broker.yielding.take count) broker.active } = [] ↔ broker.yielding.drop count = [] := by
  have distinct : (broker.yielding.map Prod.fst).Nodup := yielding_held.2
  have parts : (broker.yielding.take count ++ broker.yielding.drop count).map Prod.fst = broker.yielding.map Prod.fst := by
    rw [take_append_drop]
  rw [← parts, map_append, nodup_append] at distinct
  obtain ⟨distinct, -, apart⟩ := distinct
  rw [eq_nil_iff_forall_not_mem, eq_nil_iff_forall_not_mem]
  constructor
  · intro none entry left
    have member := mem_yielding.mp (mem_of_mem_drop left)
    apply none entry
    rw [mem_yielding]
    refine ⟨?_, member.2⟩
    rw [lookup_stopAll_absent _ fun taken => apart _ taken _ (mem_map_of_mem left) rfl]
    exact member.1
  · intro none entry member
    obtain ⟨held, underway⟩ := mem_yielding.mp member
    by_cases taken : entry.1 ∈ (broker.yielding.take count).map Prod.fst
    · obtain ⟨stopped, chosen, same⟩ := mem_map.mp taken
      have marked := lookup_stopAll_present now broker.active distinct chosen
      rw [same] at marked
      have impossible : isUnderway entry.2 = false := by
        rw [← Option.some.inj (marked.symm.trans held)]
        exact not_underway_stopping _
      rw [impossible] at underway
      cases underway
    · dsimp only at held
      rw [lookup_stopAll_absent _ taken] at held
      have before : entry ∈ broker.yielding.take count ++ broker.yielding.drop count := by
        rw [take_append_drop]
        exact mem_yielding.mpr ⟨held, underway⟩
      rcases mem_append.mp before with chosen | left
      · exact taken (mem_map_of_mem chosen)
      · exact none entry left

end Yielding

structure YieldsLeast (broker : WorkerBroker) (now : BrokerTick) (pressure : ForegroundPressure) : Prop where
  eligible : ∀ entry, entry ∈ broker.yielding ↔ broker.active[entry.1]? = some entry.2 ∧ isUnderway entry.2 = true
  ordered : broker.yielding.Pairwise Yields
  told : (broker.protectForeground now pressure).2 = (broker.yielding.take (broker.protectForeground now pressure).2.length).map stopOf
  enough : broker.LeavesReserve pressure (broker.yielding.take (broker.protectForeground now pressure).2.length) ∨
    broker.yielding.drop (broker.protectForeground now pressure).2.length = []
  least : ∀ fewer < (broker.protectForeground now pressure).2.length, ¬ broker.LeavesReserve pressure (broker.yielding.take fewer)
  charged : (broker.protectForeground now pressure).1.resourceUsage = broker.resourceUsage
  again : ∀ later, ((broker.protectForeground now pressure).1.protectForeground later pressure).2 = [] ↔
    broker.LeavesReserve pressure [] ∨ broker.yielding.drop (broker.protectForeground now pressure).2.length = []

section Order

theorem rank_injective {left right : JobPriority} (same : left.rank = right.rank) : left = right := by
  cases left <;> cases right <;> first | rfl | cases same

instance yieldsTotal : Std.Total Yields where
  total left right := by
    rcases lt_trichotomy left.2.ticket.priority.rank right.2.ticket.priority.rank with lower | same | higher
    · exact .inl (.inl lower)
    · have priority := rank_injective same
      rcases lt_trichotomy left.2.admittedAt right.2.admittedAt with older | together | newer
      · exact .inr (.inr ⟨priority.symm, .inl older⟩)
      · rcases le_total left.1 right.1 with before | after
        · exact .inl (.inr ⟨priority, .inr ⟨together.symm, before⟩⟩)
        · exact .inr (.inr ⟨priority.symm, .inr ⟨together, after⟩⟩)
      · exact .inl (.inr ⟨priority, .inl newer⟩)
    · exact .inr (.inl higher)

instance yieldsTrans : IsTrans (JobIdentity × ActiveJob) Yields where
  trans first second third := by
    rintro (lower | ⟨priority, newer⟩) (lower' | ⟨priority', newer'⟩)
    · exact .inl (lower.trans lower')
    · exact .inl (priority' ▸ lower)
    · exact .inl (priority ▸ lower')
    · refine .inr ⟨priority.trans priority', ?_⟩
      rcases newer with newer | ⟨together, before⟩ <;> rcases newer' with newer' | ⟨together', before'⟩
      · exact .inl (newer'.trans newer)
      · exact .inl (together' ▸ newer)
      · exact .inl (together ▸ newer')
      · exact .inr ⟨together'.trans together, before.trans before'⟩

end Order

section Repeated

/-- Two slots, one of them kept for audio. -/
def reservedBroker : WorkerBroker := { fullBroker with capacity := ⟨2, 10, 10, 2, ∅, 1, 0, 0, 0⟩ }

theorem reservedBroker_made : new reservedBroker.capacity shortPolicy ⟨1, 0⟩ = .ok reservedBroker := by
  have capacity : reservedBroker.capacity.validate = .ok () := ensure_ok.mpr (by decide)
  have deadlines : shortPolicy.deadlines.validate = .ok () := ensure_ok.mpr (by decide)
  have output : shortPolicy.output.validate = .ok () :=
    bind_unit_ok.mpr ⟨ensure_ok.mpr (by decide), ensure_ok.mpr (by decide)⟩
  exact bind_unit_ok.mpr ⟨capacity, bind_unit_ok.mpr ⟨bind_unit_ok.mpr ⟨deadlines, output⟩,
    bind_unit_ok.mpr ⟨ensure_ok.mpr (by decide), rfl⟩⟩⟩

end Repeated

end Audec.Broker.WorkerBroker
