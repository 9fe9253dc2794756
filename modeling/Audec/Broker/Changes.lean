import Audec.Broker.Model

/-! What an operation of the broker can change. -/

open Machine Checked Entries List
open Std (ExtTreeMap ExtTreeSet)

namespace Audec.Broker.WorkerBroker

structure Follows (job later : ActiveJob) : Prop where
  ticket : later.ticket = job.ticket
  underway : isUnderway later = true → isUnderway job = true

variable {job : ActiveJob} {jobs later : Jobs} {identity : JobIdentity} {broker : WorkerBroker} {now : BrokerTick}
  {pressure : ForegroundPressure}

theorem Follows.rfl : Follows job job := ⟨by rfl, id⟩

theorem Follows.trans {later last : ActiveJob} (first : Follows job later) (second : Follows later last) : Follows job last :=
  ⟨second.ticket.trans first.ticket, fun underway => first.underway (second.underway underway)⟩

abbrev Jobs := ExtTreeMap JobIdentity ActiveJob

def Adjusted (jobs later : Jobs) : Prop := ∀ identity : JobIdentity, Option.Rel Follows jobs[identity]? later[identity]?

theorem Adjusted.rfl : Adjusted jobs jobs := by
  intro identity
  cases jobs[identity]? with
  | none => exact .none
  | some job => exact .some Follows.rfl

section

variable (adjusted : Adjusted jobs later)
include adjusted

theorem Adjusted.held
    (held : later[identity]? = some job) : ∃ before, jobs[identity]? = some before ∧ Follows before job := by
  have related := adjusted identity
  rw [held] at related
  cases before : jobs[identity]? with
  | none => rw [before] at related; cases related
  | some found =>
    rw [before] at related
    cases related with
    | some follows => exact ⟨found, Eq.refl _, follows⟩

theorem Adjusted.kept
    (held : jobs[identity]? = some job) : ∃ after, later[identity]? = some after ∧ Follows job after := by
  have related := adjusted identity
  rw [held] at related
  cases after : later[identity]? with
  | none => rw [after] at related; cases related
  | some found =>
    rw [after] at related
    cases related with
    | some follows => exact ⟨found, Eq.refl _, follows⟩

theorem Adjusted.mem_iff (identity : JobIdentity) :
    identity ∈ later ↔ identity ∈ jobs := by
  rw [ExtTreeMap.mem_iff_isSome_getElem?, ExtTreeMap.mem_iff_isSome_getElem?, Option.isSome_iff_exists, Option.isSome_iff_exists]
  constructor
  · rintro ⟨job, held⟩
    obtain ⟨before, found, -⟩ := adjusted.held held
    exact ⟨before, found⟩
  · rintro ⟨job, held⟩
    obtain ⟨after, found, -⟩ := adjusted.kept held
    exact ⟨after, found⟩

end

theorem Adjusted.trans {last : Jobs} (first : Adjusted jobs later) (second : Adjusted later last) : Adjusted jobs last := by
  intro identity
  cases held : last[identity]? with
  | none =>
    cases before : jobs[identity]? with
    | none => exact .none
    | some job =>
      obtain ⟨after, found, -⟩ := first.kept before
      obtain ⟨found', there, -⟩ := second.kept found
      rw [held] at there
      cases there
  | some job =>
    obtain ⟨middle, found, follows⟩ := second.held held
    obtain ⟨before, found', follows'⟩ := first.held found
    rw [found']
    exact .some (follows'.trans follows)

theorem Adjusted.insert {later : ActiveJob} (held : jobs[identity]? = some job)
    (follows : Follows job later) : Adjusted jobs (jobs.insert identity later) := by
  intro other
  rw [lookup_insert]
  split
  · rename_i same
    rw [← same, held]
    exact .some follows
  · exact Adjusted.rfl other

inductive Change (broker : WorkerBroker) : WorkerBroker → Prop where
  | adjust {active : Jobs} (adjusted : Adjusted broker.active active) : Change broker { broker with active }
  | withdraw (index : Fin broker.queued.length) : Change broker { broker with
      queued := broker.queued.eraseIdx index
      terminalWithoutReceipt := broker.terminalWithoutReceipt.insert (broker.queued.get index).ticket.identity }
  | retire {identity : JobIdentity} {job : ActiveJob} (held : broker.active[identity]? = some job) : Change broker { broker with
      active := broker.active.erase identity
      terminalWithoutReceipt := broker.terminalWithoutReceipt.insert job.ticket.identity }

abbrev Changes : WorkerBroker → WorkerBroker → Prop := Relation.ReflGen Change

section Adjusting

theorem escalate_follows {state : EscalationState} (ends : state ≠ .starting ∧ state ≠ .running) : Follows job (escalate job now state) := by
  refine ⟨rfl, fun underway => ?_⟩
  simp [isUnderway, escalate, ends] at underway

theorem ending_follows {reason : CancellationReason} {ended : ActiveJob} {action : BrokerAction}
    (ends : ending identity job now reason = some (ended, action)) : Follows job ended := by
  unfold ending at ends
  split at ends <;> cases ends <;> exact escalate_follows ⟨nofun, nofun⟩

theorem due_follows {deadlines : DeadlineMillis} : Follows job (((due deadlines now identity job).map Prod.fst).getD job) := by
  unfold due
  split <;> (repeat' split) <;> first | exact Follows.rfl | exact escalate_follows ⟨nofun, nofun⟩

theorem putActive_others {jobs : List (JobIdentity × ActiveJob)} (held : ∀ entry ∈ (identity, job) :: jobs, broker.active[entry.1]? = some entry.2)
    (distinct : (((identity, job) :: jobs).map Prod.fst).Nodup) :
    (∀ later, ∀ entry ∈ jobs, (broker.putActive identity later).active[entry.1]? = some entry.2) ∧ (jobs.map Prod.fst).Nodup := by
  rw [map_cons, nodup_cons] at distinct
  refine ⟨fun later entry member => ?_, distinct.2⟩
  unfold putActive
  rw [lookup_insert, if_neg, held entry (mem_cons_of_mem _ member)]
  intro same
  exact distinct.1 (mem_map.mpr ⟨entry, member, same.symm⟩)

theorem reclaim_adjusts {jobs : List (JobIdentity × ActiveJob)} (now : BrokerTick) (maximumCpu : U16) (maximumMemory : U64) (cpuSlots : U16)
    (memoryBytes : U64) (held : ∀ entry ∈ jobs, broker.active[entry.1]? = some entry.2) (distinct : (jobs.map Prod.fst).Nodup) :
    ∃ active, Adjusted broker.active active ∧
      (reclaim now maximumCpu maximumMemory jobs cpuSlots memoryBytes broker).1 = { broker with active } := by
  induction jobs generalizing broker cpuSlots memoryBytes with
  | nil => exact ⟨broker.active, Adjusted.rfl, rfl⟩
  | cons entry jobs tail =>
    obtain ⟨identity, job⟩ := entry
    have here : broker.active[identity]? = some job := held _ mem_cons_self
    obtain ⟨others, distinct⟩ := putActive_others held distinct
    have afterwards (later : ActiveJob) (follows : Follows job later) (cpuSlots : U16) (memoryBytes : U64) :
        ∃ active, Adjusted broker.active active ∧
          (reclaim now maximumCpu maximumMemory jobs cpuSlots memoryBytes (broker.putActive identity later)).1 = { broker with active } := by
      obtain ⟨active, adjusted, same⟩ := tail cpuSlots memoryBytes (others later) distinct
      exact ⟨active, (Adjusted.insert here follows).trans adjusted, same⟩
    unfold reclaim
    split
    · exact ⟨broker.active, Adjusted.rfl, rfl⟩
    · dsimp only
      split
      · exact afterwards { job with escalationAt := some now } ⟨rfl, id⟩ _ _
      · rename_i ended action ends
        exact afterwards ended (ending_follows ends) _ _

theorem yielding_held : (∀ entry ∈ (broker.active.toList.filter fun entry => isUnderway entry.2).insertionSort Yields,
      broker.active[entry.1]? = some entry.2) ∧
    (((broker.active.toList.filter fun entry => isUnderway entry.2).insertionSort Yields).map Prod.fst).Nodup := by
  have perm := perm_insertionSort Yields (broker.active.toList.filter fun entry => isUnderway entry.2)
  constructor
  · intro entry member
    exact mem_toList.mp (mem_filter.mp (perm.mem_iff.mp member)).1
  · rw [(perm.map _).nodup_iff]
    refine List.Nodup.sublist (filter_sublist.map _) ?_
    rw [ExtTreeMap.map_fst_toList_eq_keys]
    exact ExtTreeMap.nodup_keys

theorem protectForeground_adjusts (broker : WorkerBroker) (now : BrokerTick) (pressure : ForegroundPressure) :
    ∃ active, Adjusted broker.active active ∧ (broker.protectForeground now pressure).1 = { broker with active } :=
  reclaim_adjusts _ _ _ _ _ yielding_held.1 yielding_held.2

theorem tick_adjusts (broker : WorkerBroker) (now : BrokerTick) : ∃ active, Adjusted broker.active active ∧ (broker.tick now).1 = { broker with active } := by
  refine ⟨_, fun identity => ?_, rfl⟩
  rw [ExtTreeMap.getElem?_map]
  cases broker.active[identity]? with
  | none => exact .none
  | some job => exact .some due_follows

theorem findActive_ok : broker.findActive identity = .ok job ↔ broker.active[identity]? = some job := by
  unfold findActive
  cases broker.active[identity]? <;> simp

theorem findRunning_ok : broker.findRunning identity = .ok job ↔ broker.active[identity]? = some job ∧ job.state = .running := by
  unfold findRunning
  constructor
  · intro done
    obtain ⟨found, held, done⟩ := bind_ok.mp done
    obtain ⟨running, done⟩ := bind_unit_ok.mp done
    cases done
    exact ⟨findActive_ok.mp held, ensure_ok.mp running⟩
  · rintro ⟨held, running⟩
    exact bind_ok.mpr ⟨job, findActive_ok.mpr held, bind_unit_ok.mpr ⟨ensure_ok.mpr running, rfl⟩⟩

theorem putActive_change {later : ActiveJob} (held : broker.active[identity]? = some job) (follows : Follows job later) :
    Change broker (broker.putActive identity later) :=
  .adjust (Adjusted.insert held follows)

end Adjusting

section Operations

variable {after : WorkerBroker}

theorem observeStarted_change (done : broker.observeStarted identity now = .ok after) : Change broker after := by
  unfold observeStarted at done
  obtain ⟨job, found, done⟩ := bind_ok.mp done
  obtain ⟨starting, done⟩ := bind_unit_ok.mp done
  cases done
  refine putActive_change (findActive_ok.mp found) ⟨rfl, fun _ => ?_⟩
  rw [isUnderway, ensure_ok.mp starting]
  rfl

theorem observeHeartbeat_change (done : broker.observeHeartbeat identity now = .ok after) : Change broker after := by
  unfold observeHeartbeat at done
  obtain ⟨job, found, done⟩ := bind_ok.mp done
  cases done
  exact putActive_change (findRunning_ok.mp found).1 ⟨rfl, id⟩

theorem observeProgress_change {progress : ProgressPoint} (done : broker.observeProgress identity now progress = .ok after) :
    Change broker after := by
  unfold observeProgress at done
  obtain ⟨-, done⟩ := bind_unit_ok.mp done
  obtain ⟨job, found, done⟩ := bind_ok.mp done
  obtain ⟨-, done⟩ := bind_unit_ok.mp done
  cases done
  exact putActive_change (findRunning_ok.mp found).1 ⟨rfl, id⟩

theorem requestCancel_changes {reason : CancellationReason} {action : Option BrokerAction}
    (done : broker.requestCancel identity now reason = .ok (after, action)) : Changes broker after := by
  unfold requestCancel at done
  split at done
  · rename_i index found
    obtain ⟨inside, same, -⟩ := findIdx?_eq_some_iff_getElem.mp found
    cases done
    have change : Change broker _ := .withdraw ⟨index, inside⟩
    rw [show (broker.queued.get ⟨index, inside⟩).ticket.identity = identity from of_decide_eq_true same] at change
    exact .single change
  · obtain ⟨job, found, done⟩ := bind_ok.mp done
    split at done
    · cases done
      exact .refl
    · rename_i ends
      cases done
      exact .single (putActive_change (findActive_ok.mp found) (ending_follows ends))

theorem acknowledgeTerminal_change (done : broker.acknowledgeTerminal identity = .ok after) : Change broker after := by
  unfold acknowledgeTerminal at done
  obtain ⟨job, found, done⟩ := bind_ok.mp done
  cases done
  exact .retire (findActive_ok.mp found)

end Operations

theorem scheduleLoop_keeps (inv : WorkerBroker → Prop)
    (keep : ∀ broker index, index ∈ candidates broker now pressure → inv broker → inv (broker.admission now index))
    (fuel : Nat) (holds : inv broker) : inv (scheduleLoop now pressure fuel broker).1 := by
  induction fuel generalizing broker with
  | zero => exact holds
  | succ fuel ih =>
    unfold scheduleLoop
    split
    · exact holds
    · rename_i index first
      exact ih (keep broker index (mem_of_head? first) holds)

theorem mem_candidates {index : Fin broker.queued.length} :
    index ∈ broker.candidates now pressure ↔ broker.fits (broker.queued.get index).ticket.demand broker.resourceUsage pressure = true := by
  unfold candidates
  rw [mem_insertionSort, mem_filter]
  exact and_iff_right (mem_finRange index)

theorem scheduleLoop_exhausts (fuel : Nat)
    (enough : broker.queued.length ≤ fuel) :
    ∀ job ∈ (scheduleLoop now pressure fuel broker).1.queued,
      (scheduleLoop now pressure fuel broker).1.fits job.ticket.demand (scheduleLoop now pressure fuel broker).1.resourceUsage pressure = false := by
  induction fuel generalizing broker with
  | zero =>
    intro job member
    rw [scheduleLoop, length_eq_zero_iff.mp (Nat.le_zero.mp enough)] at member
    cases member
  | succ fuel ih =>
    unfold scheduleLoop
    split
    · rename_i none
      intro job member
      obtain ⟨index, inside, rfl⟩ := getElem_of_mem member
      have excluded : (⟨index, inside⟩ : Fin broker.queued.length) ∉ broker.candidates now pressure := by
        rw [head?_eq_none_iff.mp none]
        exact not_mem_nil
      rw [mem_candidates, Bool.not_eq_true] at excluded
      exact excluded
    · rename_i index first
      apply ih
      simp only [admission, length_eraseIdx, if_pos index.isLt]
      omega

structure Submitted (broker : WorkerBroker) (ticket : JobTicket) (now : BrokerTick) (after : WorkerBroker) : Prop where
  possible : broker.Possible ticket.demand
  later : ∀ latest ∈ broker.latestGeneration[ticket.identity.jobId]?, latest < ticket.identity.generation
  alone : ∀ latest ∈ broker.latestGeneration[ticket.identity.jobId]?, (∀ other ∈ broker.active, other.jobId ≠ ticket.identity.jobId) ∧
    ∀ job ∈ broker.queued, job.ticket.identity.jobId ≠ ticket.identity.jobId
  leads : after = { broker with
    latestGeneration := broker.latestGeneration.insert ticket.identity.jobId ticket.identity.generation
    queued := broker.queued ++ [⟨ticket, now, broker.nextSequence⟩]
    nextSequence := saturatingAdd broker.nextSequence 1 }

variable {after : WorkerBroker} {attempt : CompletionAttempt}

theorem submit_ok {ticket : JobTicket} (done : broker.submit ticket now = .ok after) :
    Submitted broker ticket now after := by
  unfold submit at done
  simp only [bind_unit_ok, ensure_ok] at done
  obtain ⟨-, possible, -, generation, done⟩ := done
  have checked : ∀ latest ∈ broker.latestGeneration[ticket.identity.jobId]?, latest < ticket.identity.generation ∧
      (∀ other ∈ broker.active.keys, other.jobId ≠ ticket.identity.jobId) ∧
      ∀ job ∈ broker.queued, job.ticket.identity.jobId ≠ ticket.identity.jobId := by
    rintro latest held
    unfold checkGeneration at generation
    rw [Option.mem_def.mp held] at generation
    simp only [bind_unit_ok, ensure_ok] at generation
    exact generation
  refine ⟨possible, fun latest held => (checked latest held).1, fun latest held => ⟨fun other member => ?_, (checked latest held).2.2⟩, ?_⟩
  · exact (checked latest held).2.1 other (ExtTreeMap.mem_keys.mpr member)
  · exact (Except.ok.inj done).symm

def Completable (broker : WorkerBroker) (attempt : CompletionAttempt) : Prop :=
  broker.latestGeneration[attempt.identity.jobId]? = some attempt.identity.generation ∧ validHash attempt.resultSha256 = true ∧
    ∃ job, broker.active[attempt.identity]? = some job ∧ job.state = .running ∧
      attempt.output.totalBytes ≤ job.ticket.demand.expectedOutputBytes ∧ attempt.output.totalBytes ≤ broker.maximumOutputBytes

structure Completed (broker : WorkerBroker) (attempt : CompletionAttempt) (now : BrokerTick) (after : WorkerBroker)
    (receipt : CompletionReceipt) : Prop where
  completable : broker.Completable attempt
  gives : receipt = ⟨attempt.identity, attempt.resultSha256, attempt.output, now, broker.nextReceiptSequence⟩
  leads : after = { broker with
    active := broker.active.erase attempt.identity
    nextReceiptSequence := saturatingAdd broker.nextReceiptSequence 1
    completed := broker.completed.insert attempt.identity receipt }

theorem acceptCompletion_ok {receipt : CompletionReceipt}
    (done : broker.acceptCompletion attempt now = .ok (after, receipt)) : Completed broker attempt now after receipt := by
  unfold acceptCompletion at done
  obtain ⟨current, done⟩ := bind_unit_ok.mp done
  obtain ⟨job, found, done⟩ := bind_ok.mp done
  simp only [bind_unit_ok, ensure_ok] at done
  obtain ⟨running, output, hash, done⟩ := done
  cases done
  refine ⟨⟨?_, hash, job, ?_, running, output⟩, rfl, rfl⟩
  · unfold checkLatest at current
    split at current
    · cases current
    · rename_i latest held
      rw [ensure_ok.mp current]
      exact held
  · unfold completing at found
    split at found
    · rename_i held
      cases found
      exact held
    · split at found <;> cases found

theorem acceptCompletion_of_completable (completable : broker.Completable attempt)
    (now : BrokerTick) : ∃ result, broker.acceptCompletion attempt now = .ok result := by
  obtain ⟨latest, hash, job, held, running, output⟩ := completable
  have current : broker.checkLatest attempt.identity = .ok () := by
    unfold checkLatest
    rw [latest]
    exact ensure_ok.mpr rfl
  have found : broker.completing attempt.identity = .ok job := by
    unfold completing
    rw [held]
  exact ⟨_, bind_unit_ok.mpr ⟨current, bind_ok.mpr ⟨job, found, bind_unit_ok.mpr ⟨ensure_ok.mpr running,
    bind_unit_ok.mpr ⟨ensure_ok.mpr output, bind_unit_ok.mpr ⟨ensure_ok.mpr hash, rfl⟩⟩⟩⟩⟩⟩

def issued (broker : WorkerBroker) : Action → Option CompletionReceipt
  | .acceptCompletion attempt now => (broker.acceptCompletion attempt now).toOption.map Prod.snd
  | _ => none

def accepted (broker : WorkerBroker) : Action → Option JobIdentity
  | .submit ticket now => (broker.submit ticket now).toOption.map fun _ => ticket.identity
  | _ => none

inductive Effect (broker : WorkerBroker) (action : Action) : Prop where
  | submits (ticket : JobTicket) (now : BrokerTick) (same : action = .submit ticket now) (accepts : broker.accepted action = some ticket.identity)
      (issues : broker.issued action = none) (submitted : Submitted broker ticket now (broker.perform action))
  | completes (attempt : CompletionAttempt) (now : BrokerTick) (receipt : CompletionReceipt) (same : action = .acceptCompletion attempt now)
      (accepts : broker.accepted action = none) (issues : broker.issued action = some receipt)
      (completed : Completed broker attempt now (broker.perform action) receipt)
  | schedules (now : BrokerTick) (pressure : ForegroundPressure) (same : action = .schedule now pressure)
  | changes (unscheduled : ∀ now pressure, action ≠ .schedule now pressure) (accepts : broker.accepted action = none) (issues : broker.issued action = none) (changes : Changes broker (broker.perform action))

theorem orKeep_changes {ε α : Type} {after : α → WorkerBroker} {result : Except ε α}
    (done : ∀ value, result = .ok value → Changes broker (after value)) : Changes broker (broker.orKeep after result) := by
  cases result with
  | ok value => exact done value rfl
  | error error => exact .refl

theorem perform_effect (broker : WorkerBroker) (action : Action) : Effect broker action := by
  cases action with
  | submit ticket now =>
    cases done : broker.submit ticket now with
    | error error => exact .changes nofun (by rw [accepted, done]; rfl) rfl (by rw [perform, done]; exact .refl)
    | ok after => exact .submits ticket now rfl (by rw [accepted, done]; rfl) rfl (by rw [perform, done]; exact submit_ok done)
  | schedule now pressure => exact .schedules now pressure rfl
  | protectForeground now pressure =>
    obtain ⟨active, adjusted, same⟩ := protectForeground_adjusts broker now pressure
    exact .changes nofun rfl rfl (by rw [perform, same]; exact .single (.adjust adjusted))
  | observeStarted identity now => exact .changes nofun rfl rfl (orKeep_changes fun _ done => .single (observeStarted_change done))
  | observeHeartbeat identity now => exact .changes nofun rfl rfl (orKeep_changes fun _ done => .single (observeHeartbeat_change done))
  | observeProgress identity now progress => exact .changes nofun rfl rfl (orKeep_changes fun _ done => .single (observeProgress_change done))
  | requestCancel identity now reason => exact .changes nofun rfl rfl (orKeep_changes fun _ done => requestCancel_changes done)
  | acknowledgeTerminal identity => exact .changes nofun rfl rfl (orKeep_changes fun _ done => .single (acknowledgeTerminal_change done))
  | tick now =>
    obtain ⟨active, adjusted, same⟩ := tick_adjusts broker now
    exact .changes nofun rfl rfl (by rw [perform, same]; exact .single (.adjust adjusted))
  | acceptCompletion attempt now =>
    cases done : broker.acceptCompletion attempt now with
    | error error => exact .changes nofun rfl (by rw [issued, done]; rfl) (by rw [perform, done]; exact .refl)
    | ok result => exact .completes attempt now result.2 rfl rfl (by rw [issued, done]; rfl) (by rw [perform, done]; exact acceptCompletion_ok done)

end Audec.Broker.WorkerBroker
