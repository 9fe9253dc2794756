import Audec.Broker.Receipts

/-! Runs of a broker, and when they stay within the capacity with every receipt numbered apart. -/

open Machine Checked Entries Runs List
open Std (ExtTreeMap ExtTreeSet LawfulEqCmp)

namespace Audec.Broker.WorkerBroker

/-- What holds of a broker after a run. -/
structure Accounted (capacity : BrokerCapacity) (events : List (Event WorkerBroker Action)) (state : WorkerBroker) : Prop where
  within : ∀ reached ∈ events.map Event.before ++ [state], reached.capacity = capacity ∧ reached.Within
  single : ∀ identity other, state.Live identity → state.Live other → identity.jobId = other.jobId → identity = other
  placed : ∀ identity, state.places identity = if identity ∈ acceptedOver events then 1 else 0
  held : ∀ (identity : JobIdentity) receipt, state.completed[identity]? = some receipt ↔ receipt ∈ issuedOver events ∧ receipt.identity = identity
  once : ((issuedOver events).map CompletionReceipt.identity).Nodup
  distinct : ((issuedOver events).map CompletionReceipt.receiptSequence).Nodup
  stopped : ∀ earlier event later, events = earlier ++ event :: later → ∀ identity ∈ event.before.stops event.action,
    ∀ receipt ∈ issuedOver later, receipt.identity ≠ identity
  exhausted : ∀ now pressure, ∀ job ∈ (state.schedule now pressure).1.queued,
    (state.schedule now pressure).1.fits job.ticket.demand (state.schedule now pressure).1.resourceUsage pressure = false
  starts : state.active = ∅ → state.queued ≠ [] → ∀ now, ∃ ticket, .start ticket ∈ (state.schedule now ⟨false, false⟩).2

section Idle

variable {broker : WorkerBroker}

theorem idle_fits (sound : broker.Sound) (idle : broker.active = ∅) {demand : ResourceDemand} (possible : broker.Possible demand) :
    broker.fits demand broker.resourceUsage ⟨false, false⟩ = true := by
  obtain ⟨-, -, -, cpu, memory, scratch, accelerator⟩ := possible
  have valid := sound.capacity
  unfold BrokerCapacity.validate at valid
  obtain ⟨-, -, -, workers, -, -, slots⟩ := ensure_ok.mp valid
  have usage : broker.resourceUsage = ⟨0, 0, 0, ∅⟩ := by
    unfold resourceUsage
    rw [idle]
    rfl
  have added {bound : Nat} [NeZero bound] (value : Fin bound) : saturatingAdd 0 value = value := by
    have fits : (0 : Fin bound).val + value.val < bound := by
      rw [Fin.val_zero, Nat.zero_add]
      exact value.isLt
    apply Fin.ext
    rw [saturatingAdd_val fits, Fin.val_zero, Nat.zero_add]
  have kept {bound : Nat} [NeZero bound] (value : Fin bound) : saturatingSub value 0 = value := by
    apply Fin.ext
    change (value.val - (0 : Fin bound).val) % bound = _
    rw [Fin.val_zero, Nat.sub_zero, Nat.mod_eq_of_lt value.isLt]
  have cpuFree : cpuReserve broker.capacity ⟨false, false⟩ = 0 := added 0
  have memoryFree : memoryReserve broker.capacity ⟨false, false⟩ = 0 := added 0
  unfold WorkerBroker.fits
  rw [usage, cpuFree, memoryFree, added, added, added, kept, kept, idle]
  simp only [Bool.and_eq_true, decide_eq_true_eq, and_assoc]
  refine ⟨Nat.pos_of_ne_zero fun none => workers (Fin.ext none), cpu, memory, scratch, ?_⟩
  cases named : demand.accelerator with
  | none => rfl
  | some name =>
    have there := accelerator name named
    obtain ⟨count, found⟩ := held_of_mem there
    rw [Option.all_some, decide_eq_true_eq, found, ExtTreeMap.getElem?_empty, Option.getD_none, Option.getD_some]
    rw [any_eq_false] at slots
    have some := slots count (mem_values.mpr ⟨name, found⟩)
    rw [decide_eq_true_eq] at some
    exact Fin.pos_iff_ne_zero.mpr some

theorem idle_starts (sound : broker.Sound) (idle : broker.active = ∅) (waiting : broker.queued ≠ []) (now : BrokerTick) :
    ∃ ticket, .start ticket ∈ (broker.schedule now ⟨false, false⟩).2 := by
  have nonempty := length_pos_of_ne_nil waiting
  have first : (⟨0, nonempty⟩ : Fin broker.queued.length) ∈ broker.candidates now ⟨false, false⟩ :=
    mem_candidates.mpr (idle_fits sound idle (sound.possible _ (getElem_mem nonempty)))
  unfold schedule
  obtain ⟨rounds, many⟩ := Nat.exists_eq_succ_of_ne_zero nonempty.ne'
  rw [many, Nat.succ_eq_add_one, scheduleLoop]
  split
  · rename_i none
    rw [head?_eq_none_iff.mp none] at first
    cases first
  · exact ⟨_, mem_cons_self⟩

end Idle

section Runs

variable {capacity : BrokerCapacity} {policy : RuntimePolicy} {aging : Duration} {events : List (Event WorkerBroker Action)} {state : WorkerBroker}

section

variable (run : Run perform (fun broker => new capacity policy aging = .ok broker) events state)
include run

theorem run_recorded :
    Recorded events state ∧ state.capacity = capacity := by
  induction run with
  | start made => exact ⟨(new_fresh made).recorded, (new_fresh made).given⟩
  | step run action ih => exact ⟨ih.1.step action, (perform_effect _ action).capacity_eq.trans ih.2⟩

theorem run_stopped
    {earlier later : List (Event WorkerBroker Action)} {event : Event WorkerBroker Action} (split : events = earlier ++ event :: later)
    {identity : JobIdentity} (stops : identity ∈ event.before.stops event.action) :
    state.Stopped identity ∧ ∀ receipt ∈ issuedOver later, receipt.identity ≠ identity := by
  induction run generalizing later with
  | start =>
    have impossible := congrArg List.length split
    simp at impossible
  | @step events state run action ih =>
    rcases Run.split_last split with ⟨rfl, rfl, rfl⟩ | ⟨others, rfl, same⟩
    · exact ⟨stops_stopped stops, nofun⟩
    · obtain ⟨stopped, refused⟩ := ih same
      have sound := (run_recorded run).1.sound
      refine ⟨(perform_effect _ action).stopped sound stopped, fun receipt member => ?_⟩
      rw [issuedOver_concat, mem_append, Option.mem_toList] at member
      rcases member with before | last
      · exact refused receipt before
      · exact (perform_effect _ action).issues_other sound stopped last

section

variable (careful : ∀ event ∈ events, event.before.Careful event.action)
include careful

theorem careful_within :
    ∀ reached ∈ events.map Event.before ++ [state], reached.capacity = capacity ∧ reached.Within := by
  induction run with
  | start made =>
    intro reached member
    cases mem_singleton.mp member
    exact ⟨(new_fresh made).given, (new_fresh made).within⟩
  | @step events state run action ih =>
    have before := ih fun event member => careful event (mem_append_left _ member)
    intro reached member
    rw [map_append, map_singleton, mem_append, mem_singleton] at member
    rcases member with earlier | rfl
    · exact before reached earlier
    · obtain ⟨recorded, given⟩ := run_recorded run
      have effect := perform_effect state action
      refine ⟨effect.capacity_eq.trans given, effect.within recorded.sound (before state (mem_append_right _ mem_cons_self)).2 ?_⟩
      exact careful ⟨state, action⟩ (mem_append_right _ mem_cons_self)

theorem careful_few : (issuedOver events).length ≤ 0x10000000000000000 := by
  induction run with
  | start => exact Nat.zero_le _
  | @step events state run action ih =>
    have before := ih fun event member => careful event (mem_append_left _ member)
    rw [issuedOver_concat, length_append]
    cases issues : state.issued action with
    | none => exact before
    | some receipt =>
      obtain ⟨attempt, now, rfl, completed⟩ := (perform_effect state action).completes_of_issues issues
      have room := careful ⟨state, _⟩ (mem_append_right _ mem_cons_self) completed.completable
      rw [(run_recorded run).1.size] at room
      exact room

end

theorem careful_of_accounts
    (within : ∀ reached ∈ events.map Event.before ++ [state], reached.Within) (few : (issuedOver events).length ≤ 0x10000000000000000) :
    ∀ event ∈ events, event.before.Careful event.action := by
  rintro ⟨broker, action⟩ member
  obtain ⟨earlier, later, split⟩ := append_of_mem member
  have recorded := (run_recorded (run.upto split)).1
  cases action with
  | schedule now pressure =>
    have before := within broker (mem_append_left _ (mem_map_of_mem member))
    exact (scheduleLoop_within_iff _ recorded.sound before).mp (within _ (run.after_mem member))
  | acceptCompletion attempt now =>
    intro completable
    obtain ⟨result, done⟩ := acceptCompletion_of_completable completable now
    have issues : broker.issued (.acceptCompletion attempt now) = some result.2 := by
      rw [issued, done]
      rfl
    have issues' : issuedOver [⟨broker, .acceptCompletion attempt now⟩] = [result.2] := by
      rw [← nil_append [_], issuedOver_concat, issues]
      rfl
    have more : issuedOver events = issuedOver earlier ++ ([result.2] ++ issuedOver later) := by
      rw [split, ← issues']
      unfold issuedOver
      rw [← filterMap_append, ← filterMap_append, singleton_append]
    have size : broker.completed.size = (issuedOver earlier).length := recorded.size
    rw [more, length_append, length_append, length_singleton, ← size] at few
    change broker.completed.size < _
    omega
  | submit | protectForeground | observeStarted | observeHeartbeat | observeProgress | requestCancel | acknowledgeTerminal | tick => trivial

end

/-- A broker accounts for its jobs exactly when no machine word is passed. -/
theorem accounted_iff_careful (run : Run perform (fun broker => new capacity policy aging = .ok broker) events state) :
    Accounted capacity events state ↔ ∀ event ∈ events, event.before.Careful event.action := by
  obtain ⟨recorded, given⟩ := run_recorded run
  constructor
  · intro accounted
    exact careful_of_accounts run (fun reached member => (accounted.within reached member).2) (recorded.distinct_iff.mp accounted.distinct)
  · intro careful
    refine ⟨careful_within run careful, recorded.sound.single, fun identity => ?_, recorded.held, recorded.once,
      recorded.distinct_iff.mpr (careful_few run careful), ?_, ?_, idle_starts recorded.sound⟩
    · have once := recorded.sound.once identity
      rw [recorded.placed] at once ⊢
      split
      · rename_i member
        exact le_antisymm once (List.count_pos_iff.mpr member)
      · rename_i absent
        exact List.count_eq_zero.mpr absent
    · exact fun earlier event later split identity stops => (run_stopped run split stops).2
    · exact fun now pressure => scheduleLoop_exhausts _ le_rfl

end Runs

section Overflow

instance decidableCarefulLoop (now : BrokerTick) (pressure : ForegroundPressure) :
    (fuel : Nat) → (broker : WorkerBroker) → Decidable (CarefulLoop now pressure fuel broker)
  | 0, _ => .isTrue trivial
  | fuel + 1, broker =>
    have := decidableCarefulLoop now pressure fuel
    inferInstanceAs (Decidable (∀ index ∈ (broker.candidates now pressure).head?,
      broker.Room (broker.queued.get index).ticket.demand ∧ CarefulLoop now pressure fuel (broker.admission now index)))

/-- As many slots as the word can count. -/
def fullCapacity : BrokerCapacity := ⟨0xffff, 10, 10, 2, ∅, 0, 0, 0, 0⟩

def shortPolicy : RuntimePolicy := ⟨⟨⟨1, 0⟩, ⟨1, 0⟩, ⟨1, 0⟩, ⟨1, 0⟩, ⟨1, 0⟩, ⟨1, 0⟩⟩, ⟨1, 1, 1, 1, 1, 1, 1⟩⟩

def digest : String := String.ofList (List.replicate 64 'a')

def jobOf (jobId : String) (cpuSlots : U16) : JobTicket := ⟨⟨jobId, 0, digest, digest⟩, .interactive, ⟨cpuSlots, 1, 1, 1, none⟩⟩

def fullBroker : WorkerBroker := {
  capacity := fullCapacity
  deadlinesMillis := ⟨durationMillis ⟨1, 0⟩, durationMillis ⟨1, 0⟩, durationMillis ⟨1, 0⟩, durationMillis ⟨1, 0⟩, durationMillis ⟨1, 0⟩⟩
  maximumOutputBytes := 1
  agingWindowMillis := durationMillis ⟨1, 0⟩
  queued := []
  active := ∅
  latestGeneration := ∅
  completed := ∅
  terminalWithoutReceipt := ∅
  nextSequence := 0
  nextReceiptSequence := 0 }

theorem fullBroker_made : new fullCapacity shortPolicy ⟨1, 0⟩ = .ok fullBroker := by
  have capacity : fullCapacity.validate = .ok () := ensure_ok.mpr (by decide)
  have deadlines : shortPolicy.deadlines.validate = .ok () := ensure_ok.mpr (by decide)
  have output : shortPolicy.output.validate = .ok () :=
    bind_unit_ok.mpr ⟨ensure_ok.mpr (by decide), ensure_ok.mpr (by decide)⟩
  exact bind_unit_ok.mpr ⟨capacity, bind_unit_ok.mpr ⟨bind_unit_ok.mpr ⟨deadlines, output⟩,
    bind_unit_ok.mpr ⟨ensure_ok.mpr (by decide), rfl⟩⟩⟩

theorem fullBroker_run (actions : List Action) : Run perform (fun broker => new fullCapacity shortPolicy ⟨1, 0⟩ = .ok broker)
    (trace perform fullBroker actions) (actions.foldl perform fullBroker) :=
  @Run.tracing _ _ perform (fun broker => new fullCapacity shortPolicy ⟨1, 0⟩ = .ok broker) fullBroker fullBroker_made actions

def pair (first second : U16) : List Action :=
  [.submit (jobOf "first" first) 0, .submit (jobOf "second" second) 0, .schedule 0 ⟨false, false⟩]

/-- A sum that passes the word of the slots is not seen. -/
theorem full_overcommitted : ∃ events state,
    Run perform (fun broker => new fullCapacity shortPolicy ⟨1, 0⟩ = .ok broker) events state ∧ ¬ Accounted fullCapacity events state := by
  refine ⟨_, _, fullBroker_run (pair 0xffff 1), fun accounted => ?_⟩
  have within := (accounted.within _ (List.mem_append_right _ List.mem_cons_self)).2.cpu
  exact absurd within (by decide +kernel)

/-- Two jobs that the word can count together are accounted for. -/
theorem full_accounted : Accounted fullCapacity (trace perform fullBroker (pair 0xfffe 1)) ((pair 0xfffe 1).foldl perform fullBroker) := by
  refine (accounted_iff_careful (fullBroker_run (pair 0xfffe 1))).mpr fun event member => ?_
  rcases List.mem_cons.mp member with rfl | member
  · trivial
  rcases List.mem_cons.mp member with rfl | member
  · trivial
  cases List.mem_singleton.mp member
  have careful : CarefulLoop 0 ⟨false, false⟩ 2 (((pair 0xfffe 1).take 2).foldl perform fullBroker) := by decide +kernel
  exact careful

end Overflow

end Audec.Broker.WorkerBroker
