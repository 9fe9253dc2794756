import Audec.Lib.Runs
import Audec.Broker.Demands

/-! The receipts given out over a run, and the jobs that can no longer get one. -/

open Machine Checked Entries Runs List
open Std (ExtTreeMap ExtTreeSet LawfulEqCmp)

namespace Audec.Broker.WorkerBroker

section Frame

variable {broker : WorkerBroker}

theorem scheduleLoop_frame (now : BrokerTick) (pressure : ForegroundPressure) (fuel : Nat) :
    (scheduleLoop now pressure fuel broker).1.capacity = broker.capacity ∧ (scheduleLoop now pressure fuel broker).1.completed = broker.completed ∧
      (scheduleLoop now pressure fuel broker).1.nextReceiptSequence = broker.nextReceiptSequence := by
  refine scheduleLoop_keeps (fun later => later.capacity = broker.capacity ∧ later.completed = broker.completed ∧
    later.nextReceiptSequence = broker.nextReceiptSequence) ?_ fuel ⟨rfl, rfl, rfl⟩
  exact fun _ _ _ same => same

theorem Changes.frame {after : WorkerBroker} (changes : Changes broker after) :
    after.capacity = broker.capacity ∧ after.completed = broker.completed ∧ after.nextReceiptSequence = broker.nextReceiptSequence := by
  cases changes with
  | refl => exact ⟨rfl, rfl, rfl⟩
  | single change => cases change <;> exact ⟨rfl, rfl, rfl⟩

variable {action : Action}

section

variable (effect : Effect broker action)
include effect

theorem Effect.capacity_eq : (broker.perform action).capacity = broker.capacity := by
  cases effect with
  | submits _ _ _ _ _ submitted => rw [submitted.leads]
  | completes _ _ _ _ _ _ completed => rw [completed.leads]
  | schedules now pressure same =>
    subst same
    exact (scheduleLoop_frame now pressure _).1
  | changes _ _ _ changes => exact changes.frame.1

theorem Effect.completed_eq (issues : broker.issued action = none) :
    (broker.perform action).completed = broker.completed ∧ (broker.perform action).nextReceiptSequence = broker.nextReceiptSequence := by
  cases effect with
  | submits _ _ _ _ _ submitted =>
    rw [submitted.leads]
    exact ⟨rfl, rfl⟩
  | completes _ _ _ _ _ issued =>
    rw [issued] at issues
    cases issues
  | schedules now pressure same =>
    subst same
    exact (scheduleLoop_frame now pressure _).2
  | changes _ _ _ changes => exact changes.frame.2

theorem Effect.completes_of_issues {receipt : CompletionReceipt}
    (issues : broker.issued action = some receipt) :
    ∃ attempt now, action = .acceptCompletion attempt now ∧ Completed broker attempt now (broker.perform action) receipt := by
  cases effect with
  | submits _ _ _ _ none | changes _ _ none =>
    rw [none] at issues
    cases issues
  | completes attempt now _ same _ issued completed =>
    rw [issued] at issues
    cases issues
    exact ⟨attempt, now, same, completed⟩
  | schedules now pressure same =>
    subst same
    cases issues

end

end Frame

def issuedOver (events : List (Event WorkerBroker Action)) : List CompletionReceipt := events.filterMap fun event => event.before.issued event.action

def acceptedOver (events : List (Event WorkerBroker Action)) : List JobIdentity := events.filterMap fun event => event.before.accepted event.action

/-- What a broker holds after a run, next to what the run did. -/
structure Recorded (events : List (Event WorkerBroker Action)) (broker : WorkerBroker) : Prop where
  sound : broker.Sound
  placed : ∀ identity, broker.places identity = (acceptedOver events).count identity
  held : ∀ (identity : JobIdentity) receipt, broker.completed[identity]? = some receipt ↔ receipt ∈ issuedOver events ∧ receipt.identity = identity
  once : ((issuedOver events).map CompletionReceipt.identity).Nodup
  size : broker.completed.size = (issuedOver events).length
  next : broker.nextReceiptSequence.val = min (issuedOver events).length 0xffffffffffffffff
  numbered : (issuedOver events).map (fun receipt => receipt.receiptSequence.val) =
    (List.range (issuedOver events).length).map fun number => min number 0xffffffffffffffff

section

variable (events : List (Event WorkerBroker Action)) (broker : WorkerBroker) (action : Action)
include events broker action

theorem issuedOver_concat :
    issuedOver (events ++ [⟨broker, action⟩]) = issuedOver events ++ (broker.issued action).toList := by
  unfold issuedOver
  rw [filterMap_append]
  cases issued : broker.issued action <;> simp [issued]

theorem acceptedOver_concat :
    acceptedOver (events ++ [⟨broker, action⟩]) = acceptedOver events ++ (broker.accepted action).toList := by
  unfold acceptedOver
  rw [filterMap_append]
  cases accepted : broker.accepted action <;> simp [accepted]

end

theorem count_toList (found : Option JobIdentity) (identity : JobIdentity) :
    found.toList.count identity = if found = some identity then 1 else 0 := by
  cases found with
  | none => rfl
  | some other =>
    rw [Option.toList_some, count_singleton]
    simp only [beq_iff_eq, Option.some.injEq]

theorem Fresh.recorded {capacity : BrokerCapacity} {broker : WorkerBroker} (fresh : Fresh capacity broker) : Recorded [] broker where
  sound := fresh.sound
  placed := fresh.places_eq
  held := by
    intro identity receipt
    rw [fresh.completed, ExtTreeMap.getElem?_empty]
    exact ⟨nofun, nofun⟩
  once := nodup_nil
  size := by rw [fresh.completed]; rfl
  next := by rw [fresh.sequence]; rfl
  numbered := rfl

theorem Recorded.step {events : List (Event WorkerBroker Action)} {broker : WorkerBroker} (recorded : Recorded events broker) (action : Action) :
    Recorded (events ++ [⟨broker, action⟩]) (broker.perform action) := by
  have effect := perform_effect broker action
  have placed (identity : JobIdentity) :
      (broker.perform action).places identity = (acceptedOver (events ++ [⟨broker, action⟩])).count identity := by
    rw [acceptedOver_concat, count_append, effect.places_eq recorded.sound, recorded.placed, count_toList]
  cases issues : broker.issued action with
  | none =>
    have same : issuedOver (events ++ [⟨broker, action⟩]) = issuedOver events := by
      rw [issuedOver_concat, issues, Option.toList_none, append_nil]
    obtain ⟨completed, sequence⟩ := effect.completed_eq issues
    exact ⟨effect.sound recorded.sound, placed, by rw [same, completed]; exact recorded.held, by rw [same]; exact recorded.once,
      by rw [same, completed]; exact recorded.size, by rw [same, sequence]; exact recorded.next, by rw [same]; exact recorded.numbered⟩
  | some receipt =>
    have more : issuedOver (events ++ [⟨broker, action⟩]) = issuedOver events ++ [receipt] := by
      rw [issuedOver_concat, issues, Option.toList_some]
    obtain ⟨attempt, now, -, completed⟩ := effect.completes_of_issues issues
    obtain ⟨-, -, job, active, -⟩ := completed.completable
    have absent : attempt.identity ∉ broker.completed := (recorded.sound.active_only active).1
    have identity : receipt.identity = attempt.identity := by rw [completed.gives]
    have unissued : receipt.identity ∉ (issuedOver events).map CompletionReceipt.identity := by
      intro member
      obtain ⟨earlier, issued, same⟩ := mem_map.mp member
      apply absent
      rw [ExtTreeMap.mem_iff_isSome_getElem?, (recorded.held _ earlier).mpr ⟨issued, same.trans identity⟩]
      rfl
    refine ⟨effect.sound recorded.sound, placed, ?_, ?_, ?_, ?_, ?_⟩
    · intro other found
      rw [more, completed.leads, lookup_insert, mem_append, mem_singleton]
      split
      · rename_i same
        subst same
        constructor
        · intro here
          cases here
          exact ⟨.inr rfl, identity⟩
        · rintro ⟨issued | rfl, same⟩
          · exact absurd (mem_map.mpr ⟨found, issued, same.trans identity.symm⟩) unissued
          · rfl
      · rename_i differ
        rw [recorded.held]
        constructor
        · rintro ⟨issued, same⟩
          exact ⟨.inl issued, same⟩
        · rintro ⟨issued | rfl, same⟩
          · exact ⟨issued, same⟩
          · exact absurd (identity.symm.trans same) differ
    · rw [more, map_append, map_singleton]
      exact (nodup_append_comm.mp (nodup_cons.mpr ⟨unissued, recorded.once⟩))
    · rw [more, completed.leads, ExtTreeMap.size_insert, if_neg (by rw [ExtTreeMap.contains_iff_mem]; exact absent), recorded.size,
        length_append, length_singleton]
    · rw [more, completed.leads, length_append, length_singleton]
      change min (broker.nextReceiptSequence.val + 1) 0xffffffffffffffff % 0x10000000000000000 = _
      rw [recorded.next]
      omega
    · rw [more, map_append, map_singleton, recorded.numbered, completed.gives, recorded.next, length_append,
        length_singleton, range_succ, map_append, map_singleton]

section Numbers

variable {events : List (Event WorkerBroker Action)} {broker : WorkerBroker}

/-- The numbers of the receipts are distinct as long as there are enough. -/
theorem Recorded.distinct_iff (recorded : Recorded events broker) :
    ((issuedOver events).map CompletionReceipt.receiptSequence).Nodup ↔ (issuedOver events).length ≤ 0x10000000000000000 := by
  have values : ((issuedOver events).map CompletionReceipt.receiptSequence).Nodup ↔
      ((issuedOver events).map fun receipt => receipt.receiptSequence.val).Nodup := by
    rw [← nodup_map_iff Fin.val_injective, map_map]
    rfl
  rw [values, recorded.numbered]
  constructor
  · intro distinct
    by_contra many
    have last := inj_on_of_nodup_map distinct (x := 0xffffffffffffffff) (y := 0x10000000000000000)
      (mem_range.mpr (by omega)) (mem_range.mpr (by omega)) rfl
    omega
  · intro few
    refine Nodup.map_on ?_ nodup_range
    intro first inside second inside' same
    rw [mem_range] at inside inside'
    omega

end Numbers

section Stopped

def Stopped (broker : WorkerBroker) (identity : JobIdentity) : Prop :=
  identity ∈ broker.terminalWithoutReceipt ∨ ∃ job, broker.active[identity]? = some job ∧ isUnderway job = false

variable {broker : WorkerBroker} {identity : JobIdentity}

theorem admission_stopped (now : BrokerTick) (index : Fin broker.queued.length) (sound : broker.Sound) (stopped : broker.Stopped identity) :
    (broker.admission now index).Stopped identity := by
  obtain ⟨inactive, -⟩ := sound.queued_only index
  refine stopped.imp_right fun ⟨job, held, ends⟩ => ⟨job, ?_, ends⟩
  unfold admission
  rw [lookup_insert, if_neg, held]
  rintro rfl
  apply inactive
  exact mem_of_held held

variable {after : WorkerBroker} {receipt : CompletionReceipt} {action : Action}

theorem Change.stopped (change : Change broker after) (sound : broker.Sound) (stopped : broker.Stopped identity) :
    after.Stopped identity := by
  cases change with
  | adjust adjusted =>
    refine stopped.imp_right fun ⟨job, held, ends⟩ => ?_
    obtain ⟨after, found, follows⟩ := adjusted.kept held
    refine ⟨after, found, ?_⟩
    rw [← Bool.not_eq_true] at ends ⊢
    exact fun underway => ends (follows.underway underway)
  | withdraw => exact stopped.imp_left fun member => ExtTreeSet.mem_insert.mpr (.inr member)
  | @retire found job held =>
    rcases stopped with member | ⟨other, there, ends⟩
    · exact .inl (ExtTreeSet.mem_insert.mpr (.inr member))
    · by_cases same : found = identity
      · left
        rw [sound.keyed found job held, same]
        exact ExtTreeSet.mem_insert_self
      · right
        exact ⟨other, by rw [lookup_erase, if_neg same, there], ends⟩

theorem Completed.not_stopped {attempt : CompletionAttempt} {now : BrokerTick}
    (completed : Completed broker attempt now after receipt) (sound : broker.Sound) : ¬ broker.Stopped attempt.identity := by
  obtain ⟨-, -, job, held, running, -⟩ := completed.completable
  rintro (member | ⟨other, there, ends⟩)
  · exact (sound.active_only held).2 member
  · rw [held] at there
    cases there
    rw [isUnderway, running] at ends
    cases ends

section

variable (effect : Effect broker action) (sound : broker.Sound)
include effect sound

theorem Effect.stopped (stopped : broker.Stopped identity) :
    (broker.perform action).Stopped identity := by
  cases effect with
  | submits _ _ _ _ _ submitted =>
    rw [submitted.leads]
    exact stopped
  | completes attempt _ _ _ _ _ completed =>
    have other : attempt.identity ≠ identity := fun same => completed.not_stopped sound (same ▸ stopped)
    rw [completed.leads]
    exact stopped.imp_right fun ⟨job, held, ends⟩ => ⟨job, by rw [lookup_erase, if_neg other, held], ends⟩
  | schedules now pressure same =>
    subst same
    refine (scheduleLoop_keeps (fun later => later.Sound ∧ later.Stopped identity) ?_ _ ⟨sound, stopped⟩).2
    rintro later index - ⟨sound, stopped⟩
    exact ⟨admission_sound now index sound, admission_stopped now index sound stopped⟩
  | changes _ _ _ changes =>
    rcases (Relation.reflGen_iff _ _ _).mp changes with same | change
    · rw [same]
      exact stopped
    · exact change.stopped sound stopped

theorem Effect.issues_other (stopped : broker.Stopped identity)
    (issues : broker.issued action = some receipt) : receipt.identity ≠ identity := by
  obtain ⟨attempt, now, -, completed⟩ := effect.completes_of_issues issues
  rintro rfl
  rw [completed.gives] at stopped
  exact completed.not_stopped sound stopped

end

end Stopped

section Stops

def concerns : BrokerAction → JobIdentity
  | .start ticket => ticket.identity
  | .sendCancel identity _ | .kill identity _ | .declareUnresponsive identity _ => identity

def stops (broker : WorkerBroker) : Action → List JobIdentity
  | .requestCancel identity now reason => (broker.requestCancel identity now reason).toOption.toList.map fun _ => identity
  | .protectForeground now pressure => (broker.protectForeground now pressure).2.map concerns
  | .tick now => (broker.tick now).2.map concerns
  | _ => []

variable {broker : WorkerBroker} {identity : JobIdentity} {now : BrokerTick}

variable {action : BrokerAction} {job : ActiveJob} {reason : CancellationReason}

theorem ending_stops {ended : ActiveJob}
    (ends : ending identity job now reason = some (ended, action)) : isUnderway ended = false ∧ concerns action = identity := by
  unfold ending at ends
  split at ends <;> cases ends <;> exact ⟨rfl, rfl⟩

theorem ending_none (none : ending identity job now reason = none) : isUnderway job = false := by
  unfold ending at none
  split at none
  · cases none
  · cases none
  · rename_i state
    rw [isUnderway, state]
    rfl
  · rename_i state
    rw [isUnderway, state]
    rfl

theorem due_stops {deadlines : DeadlineMillis} {later : ActiveJob}
    (found : due deadlines now identity job = some (later, action)) : isUnderway later = false ∧ concerns action = identity := by
  unfold due at found
  split at found <;> (repeat' split at found) <;> cases found <;> exact ⟨rfl, rfl⟩

theorem requestCancel_stops {after : WorkerBroker} {action : Option BrokerAction}
    (done : broker.requestCancel identity now reason = .ok (after, action)) : after.Stopped identity := by
  unfold requestCancel at done
  split at done
  · cases done
    exact .inl ExtTreeSet.mem_insert_self
  · obtain ⟨job, found, done⟩ := bind_ok.mp done
    rw [findActive_ok] at found
    split at done
    · rename_i none
      cases done
      exact .inr ⟨job, found, ending_none none⟩
    · rename_i ended _ ends
      cases done
      exact .inr ⟨ended, ExtTreeMap.getElem?_insert_self, (ending_stops ends).1⟩

theorem tick_stops : ∀ action ∈ (broker.tick now).2, (broker.tick now).1.Stopped (concerns action) := by
  intro action member
  obtain ⟨⟨identity, job⟩, inside, found⟩ := mem_filterMap.mp member
  obtain ⟨⟨later, action⟩, reached, rfl⟩ := Option.map_eq_some_iff.mp found
  obtain ⟨ends, concern⟩ := due_stops reached
  refine .inr ⟨later, ?_, ends⟩
  unfold tick
  rw [ExtTreeMap.getElem?_map, concern, mem_toList.mp inside, Option.map_some, reached]
  rfl

theorem reclaim_stops {maximumCpu : U16} {maximumMemory : U64} {jobs : List (JobIdentity × ActiveJob)} {cpuSlots : U16} {memoryBytes : U64}
    (held : ∀ entry ∈ jobs, broker.active[entry.1]? = some entry.2) (distinct : (jobs.map Prod.fst).Nodup) :
    ∀ action ∈ (reclaim now maximumCpu maximumMemory jobs cpuSlots memoryBytes broker).2,
      (reclaim now maximumCpu maximumMemory jobs cpuSlots memoryBytes broker).1.Stopped (concerns action) := by
  induction jobs generalizing broker cpuSlots memoryBytes with
  | nil => exact nofun
  | cons entry jobs tail =>
    obtain ⟨identity, job⟩ := entry
    obtain ⟨others, distinct⟩ := putActive_others held distinct
    intro action member
    unfold reclaim at member ⊢
    split at member
    · cases member
    · rename_i exceeded
      rw [if_neg exceeded]
      dsimp only at member ⊢
      split at member
      · exact tail (others _) distinct action member
      · rename_i ended _ ends
        rcases mem_cons.mp member with rfl | later
        · obtain ⟨active, adjusted, same⟩ := reclaim_adjusts now maximumCpu maximumMemory
            (saturatingSub cpuSlots job.ticket.demand.cpuSlots) (saturatingSub memoryBytes job.ticket.demand.memoryBytes) (others ended) distinct
          obtain ⟨stops, concern⟩ := ending_stops ends
          obtain ⟨last, found, follows⟩ := adjusted.kept (ExtTreeMap.getElem?_insert_self (k := identity) (v := ended))
          refine .inr ⟨last, ?_, ?_⟩
          · rw [concern]
            exact (congrArg (fun broker => broker.active[identity]?) same).trans found
          · rw [← Bool.not_eq_true] at stops ⊢
            exact fun underway => stops (follows.underway underway)
        · exact tail (others ended) distinct action later

theorem stops_stopped {action : Action} (member : identity ∈ broker.stops action) : (broker.perform action).Stopped identity := by
  cases action with
  | requestCancel asked now reason =>
    obtain ⟨⟨after, action⟩, found, same⟩ := mem_map.mp member
    subst same
    rw [Option.mem_toList] at found
    cases done : broker.requestCancel asked now reason with
    | error error =>
      rw [done] at found
      cases found
    | ok result =>
      rw [done] at found
      cases found
      have stopped := requestCancel_stops done
      rw [perform, done]
      exact stopped
  | protectForeground now pressure =>
    obtain ⟨action, inside, rfl⟩ := mem_map.mp member
    exact reclaim_stops yielding_held.1 yielding_held.2 action inside
  | tick now =>
    obtain ⟨action, inside, rfl⟩ := mem_map.mp member
    exact tick_stops action inside
  | submit | schedule | observeStarted | observeHeartbeat | observeProgress | acknowledgeTerminal | acceptCompletion => cases member

end Stops

end Audec.Broker.WorkerBroker
