import Audec.Broker.Changes

/-! Every submitted identity is in one place: queued, active, completed or ended. -/

open Machine Checked Entries Std.ExtTreeMap
open Std (ExtTreeMap ExtTreeSet LawfulEqCmp)

namespace Audec.Broker.WorkerBroker

def places (broker : WorkerBroker) (identity : JobIdentity) : Nat :=
  broker.queued.countP (fun job => job.ticket.identity = identity) + (if identity ∈ broker.active then 1 else 0) +
    (if identity ∈ broker.completed then 1 else 0) + if identity ∈ broker.terminalWithoutReceipt then 1 else 0

def Live (broker : WorkerBroker) (identity : JobIdentity) : Prop :=
  (∃ job ∈ broker.queued, job.ticket.identity = identity) ∨ identity ∈ broker.active

/-- What the broker keeps over its runs. -/
structure Sound (broker : WorkerBroker) : Prop where
  capacity : broker.capacity.validate = .ok ()
  keyed : ∀ (identity : JobIdentity) job, broker.active[identity]? = some job → job.ticket.identity = identity
  once : ∀ identity, broker.places identity ≤ 1
  known : ∀ identity, broker.places identity ≠ 0 → ∃ latest, broker.latestGeneration[identity.jobId]? = some latest ∧ identity.generation ≤ latest
  single : ∀ identity other, broker.Live identity → broker.Live other → identity.jobId = other.jobId → identity = other
  possible : ∀ job ∈ broker.queued, broker.Possible job.ticket.demand

section Places

variable {broker : WorkerBroker} {identity : JobIdentity}

theorem live_iff : broker.Live identity ↔ 0 < broker.queued.countP (fun job => job.ticket.identity = identity) + if identity ∈ broker.active then 1 else 0 := by
  unfold Live
  rw [Nat.add_pos_iff_pos_or_pos, List.countP_pos_iff]
  simp only [decide_eq_true_eq]
  apply or_congr Iff.rfl
  split <;> simp_all

theorem places_of_live (live : broker.Live identity) : broker.places identity ≠ 0 := by
  have positive := live_iff.mp live
  unfold places
  omega

theorem countP_eraseIdx (test : QueuedJob → Bool) (queued : List QueuedJob) (index : Fin queued.length) :
    queued.countP test = (queued.eraseIdx index).countP test + if test (queued.get index) = true then 1 else 0 := by
  have perm : queued.Perm (queued.get index :: queued.eraseIdx index) := (List.getElem_cons_eraseIdx_perm index.isLt).symm
  rw [perm.countP_eq, List.countP_cons]

theorem Sound.queued_only (sound : broker.Sound) (index : Fin broker.queued.length) :
    (broker.queued.get index).ticket.identity ∉ broker.active ∧ (broker.queued.get index).ticket.identity ∉ broker.terminalWithoutReceipt := by
  have once := sound.once (broker.queued.get index).ticket.identity
  have counted := countP_eraseIdx (fun job => job.ticket.identity = (broker.queued.get index).ticket.identity) broker.queued index
  rw [decide_eq_true rfl, if_pos rfl] at counted
  unfold places at once
  constructor
  · intro member
    rw [if_pos member] at once
    omega
  · intro member
    rw [if_pos member] at once
    omega

theorem Sound.active_only (sound : broker.Sound) {job : ActiveJob} (held : broker.active[identity]? = some job) :
    identity ∉ broker.completed ∧ identity ∉ broker.terminalWithoutReceipt := by
  have once := sound.once identity
  have active : identity ∈ broker.active := mem_of_held held
  unfold places at once
  rw [if_pos active] at once
  constructor
  · intro member
    rw [if_pos member] at once
    omega
  · intro member
    rw [if_pos member] at once
    omega

end Places

section Admission

variable {broker : WorkerBroker} (now : BrokerTick) (index : Fin broker.queued.length)

theorem admission_places (sound : broker.Sound) (identity : JobIdentity) :
    (broker.admission now index).places identity = broker.places identity := by
  obtain ⟨inactive, -⟩ := sound.queued_only index
  have counted := countP_eraseIdx (fun job => job.ticket.identity = identity) broker.queued index
  simp only [decide_eq_true_eq] at counted
  change (broker.queued.eraseIdx index).countP _ + (if identity ∈ broker.active.insert _ _ then 1 else 0) +
    (if identity ∈ broker.completed then 1 else 0) + (if identity ∈ broker.terminalWithoutReceipt then 1 else 0) = _
  simp only [places, mem_insert, LawfulEqCmp.compare_eq_iff_eq]
  by_cases same : (broker.queued.get index).ticket.identity = identity
  · rw [same] at inactive
    simp only [same, true_or, if_true, inactive, if_false] at counted ⊢
    omega
  · simp only [same, false_or, if_false] at counted ⊢
    omega

theorem admission_live {identity : JobIdentity} (live : (broker.admission now index).Live identity) : broker.Live identity := by
  rcases live with ⟨job, member, same⟩ | member
  · exact .inl ⟨job, List.mem_of_mem_eraseIdx member, same⟩
  · simp only [admission, mem_insert, LawfulEqCmp.compare_eq_iff_eq] at member
    exact member.imp (fun same => ⟨_, List.getElem_mem index.isLt, same⟩) id

theorem admission_sound (sound : broker.Sound) : (broker.admission now index).Sound where
  capacity := sound.capacity
  keyed := by
    intro identity job held
    simp only [admission, lookup_insert] at held
    split at held
    · rename_i same
      cases held
      exact same
    · exact sound.keyed identity job held
  once := fun identity => by
    rw [admission_places now index sound]
    exact sound.once identity
  known := fun identity placed => by
    rw [admission_places now index sound] at placed
    exact sound.known identity placed
  single := fun identity other live live' => sound.single identity other (admission_live now index live) (admission_live now index live')
  possible := fun job member => sound.possible job (List.mem_of_mem_eraseIdx member)

theorem scheduleLoop_sound (pressure : ForegroundPressure) (fuel : Nat) (sound : broker.Sound) :
    (scheduleLoop now pressure fuel broker).1.Sound ∧
      ∀ identity, (scheduleLoop now pressure fuel broker).1.places identity = broker.places identity := by
  refine scheduleLoop_keeps (fun later => later.Sound ∧ ∀ identity, later.places identity = broker.places identity) ?_ fuel ⟨sound, fun _ => rfl⟩
  rintro later index - ⟨sound, same⟩
  exact ⟨admission_sound now index sound, fun identity => (admission_places now index sound identity).trans (same identity)⟩

end Admission

variable {after broker : WorkerBroker} {action : Action}

theorem Change.places_eq (change : Change broker after) (sound : broker.Sound) (identity : JobIdentity) :
    after.places identity = broker.places identity := by
  cases change with
  | adjust adjusted => simp only [places, adjusted.mem_iff]
  | withdraw index =>
    obtain ⟨-, unended⟩ := sound.queued_only index
    have counted := countP_eraseIdx (fun job => job.ticket.identity = identity) broker.queued index
    simp only [decide_eq_true_eq] at counted
    simp only [places, ExtTreeSet.mem_insert, LawfulEqCmp.compare_eq_iff_eq]
    by_cases same : (broker.queued.get index).ticket.identity = identity
    · rw [same] at unended
      simp only [same, true_or, if_true, unended, if_false] at counted ⊢
      omega
    · simp only [same, false_or, if_false] at counted ⊢
      omega
  | @retire found job held =>
    have unended := (sound.active_only held).2
    have active : found ∈ broker.active := mem_of_held held
    simp only [places, ExtTreeSet.mem_insert, mem_erase, LawfulEqCmp.compare_eq_iff_eq, sound.keyed _ _ held, ne_eq]
    by_cases same : found = identity
    · subst same
      simp only [unended, active, not_true_eq_false, false_and, true_or, if_true, if_false]
      omega
    · simp only [same, not_false_eq_true, true_and, false_or]

theorem Change.live (change : Change broker after) {identity : JobIdentity} (live : after.Live identity) :
    broker.Live identity := by
  cases change with
  | adjust adjusted => exact live.imp_right (adjusted.mem_iff identity).mp
  | withdraw index => exact live.imp_left fun ⟨job, member, same⟩ => ⟨job, List.mem_of_mem_eraseIdx member, same⟩
  | retire held => exact live.imp_right fun member => mem_of_mem_erase member

theorem Change.sound {broker after : WorkerBroker} (change : Change broker after) (sound : broker.Sound) : after.Sound where
  capacity := by cases change <;> exact sound.capacity
  keyed := by
    intro identity job held
    cases change with
    | adjust adjusted =>
      obtain ⟨before, found, follows⟩ := adjusted.held held
      rw [follows.ticket]
      exact sound.keyed identity before found
    | withdraw index => exact sound.keyed identity job held
    | retire =>
      rw [lookup_erase] at held
      split at held
      · cases held
      · exact sound.keyed identity job held
  once := fun identity => by
    rw [change.places_eq sound]
    exact sound.once identity
  known := fun identity placed => by
    rw [change.places_eq sound] at placed
    cases change <;> exact sound.known identity placed
  single := fun identity other live live' => sound.single identity other (change.live live) (change.live live')
  possible := by
    intro job member
    cases change with
    | adjust | retire => exact sound.possible job member
    | withdraw => exact sound.possible job (List.mem_of_mem_eraseIdx member)

theorem Changes.keep (changes : Changes broker after) (sound : broker.Sound) :
    after.Sound ∧ ∀ identity, after.places identity = broker.places identity := by
  induction changes with
  | refl => exact ⟨sound, fun _ => rfl⟩
  | single change => exact ⟨change.sound sound, change.places_eq sound⟩

section Submission

variable {ticket : JobTicket} {now : BrokerTick}

theorem Submitted.fresh (submitted : Submitted broker ticket now after) (sound : broker.Sound) : broker.places ticket.identity = 0 := by
  by_contra placed
  obtain ⟨latest, held, bound⟩ := sound.known _ placed
  exact absurd (submitted.later latest held) (not_lt.mpr bound)

theorem Submitted.places_eq (submitted : Submitted broker ticket now after) (identity : JobIdentity) :
    after.places identity = broker.places identity + if ticket.identity = identity then 1 else 0 := by
  rw [submitted.leads]
  simp only [places, List.countP_append, List.countP_singleton, decide_eq_true_eq]
  omega

variable {identity : JobIdentity}

section

variable (submitted : Submitted broker ticket now after)
include submitted

theorem Submitted.alone_live (sound : broker.Sound)
    (live : broker.Live identity) : identity.jobId ≠ ticket.identity.jobId := by
  intro same
  obtain ⟨latest, held, -⟩ := sound.known _ (places_of_live live)
  rw [same] at held
  obtain ⟨inactive, unqueued⟩ := submitted.alone latest held
  rcases live with ⟨job, member, rfl⟩ | member
  · exact unqueued job member same
  · exact inactive identity member same

theorem Submitted.live (live : after.Live identity) :
    identity = ticket.identity ∨ broker.Live identity := by
  rw [submitted.leads] at live
  rcases live with ⟨job, member, rfl⟩ | member
  · rcases List.mem_append.mp member with before | last
    · exact .inr (.inl ⟨job, before, rfl⟩)
    · cases List.mem_singleton.mp last
      exact .inl rfl
  · exact .inr (.inr member)

theorem Submitted.sound (sound : broker.Sound) : after.Sound where
  capacity := by rw [submitted.leads]; exact sound.capacity
  keyed := by rw [submitted.leads]; exact sound.keyed
  once := fun identity => by
    rw [submitted.places_eq]
    split
    · rename_i same
      rw [← same, submitted.fresh sound]
    · exact sound.once identity
  known := fun identity placed => by
    rw [submitted.places_eq] at placed
    rw [submitted.leads]
    simp only [lookup_insert]
    by_cases same : ticket.identity = identity
    · exact ⟨identity.generation, by rw [same, if_pos rfl], le_rfl⟩
    · rw [if_neg same] at placed
      obtain ⟨latest, held, bound⟩ := sound.known identity placed
      split
      · rename_i jobs
        rw [← jobs] at held
        exact ⟨_, rfl, bound.trans (submitted.later latest held).le⟩
      · exact ⟨latest, held, bound⟩
  single := fun identity other live live' jobs => by
    rcases submitted.live live with rfl | before
    · rcases submitted.live live' with same | before'
      · exact same.symm
      · exact absurd jobs.symm (submitted.alone_live sound before')
    · rcases submitted.live live' with rfl | before'
      · exact absurd jobs (submitted.alone_live sound before)
      · exact sound.single identity other before before' jobs
  possible := fun job member => by
    rw [submitted.leads] at member ⊢
    rcases List.mem_append.mp member with before | last
    · exact sound.possible job before
    · cases List.mem_singleton.mp last
      exact submitted.possible

end

end Submission

section Completion

variable {attempt : CompletionAttempt} {now : BrokerTick} {receipt : CompletionReceipt}

section

variable (completed : Completed broker attempt now after receipt)
include completed

theorem Completed.places_eq (sound : broker.Sound) (identity : JobIdentity) :
    after.places identity = broker.places identity := by
  obtain ⟨-, -, job, held, -⟩ := completed.completable
  have uncompleted := (sound.active_only held).1
  have active : attempt.identity ∈ broker.active := mem_of_held held
  rw [completed.leads]
  simp only [places, mem_insert, mem_erase, LawfulEqCmp.compare_eq_iff_eq, ne_eq]
  by_cases same : attempt.identity = identity
  · subst same
    simp only [uncompleted, active, not_true_eq_false, false_and, true_or, if_true, if_false]
  · simp only [same, not_false_eq_true, true_and, false_or]

theorem Completed.live {identity : JobIdentity} (live : after.Live identity) :
    broker.Live identity := by
  rw [completed.leads] at live
  exact live.imp_right fun member => mem_of_mem_erase member

theorem Completed.sound (sound : broker.Sound) : after.Sound where
  capacity := by rw [completed.leads]; exact sound.capacity
  keyed := fun identity job held => by
    rw [completed.leads, lookup_erase] at held
    split at held
    · cases held
    · exact sound.keyed identity job held
  once := fun identity => by
    rw [completed.places_eq sound]
    exact sound.once identity
  known := fun identity placed => by
    rw [completed.places_eq sound] at placed
    rw [completed.leads]
    exact sound.known identity placed
  single := fun identity other live live' => sound.single identity other (completed.live live) (completed.live live')
  possible := by rw [completed.leads]; exact sound.possible

end

end Completion

theorem Effect.sound (effect : Effect broker action) (sound : broker.Sound) :
    (broker.perform action).Sound := by
  cases effect with
  | submits _ _ _ _ _ submitted => exact submitted.sound sound
  | completes _ _ _ _ _ _ completed => exact completed.sound sound
  | schedules now pressure same =>
    rw [same]
    exact (scheduleLoop_sound now pressure _ sound).1
  | changes _ _ _ changes => exact (changes.keep sound).1

theorem Effect.places_eq (effect : Effect broker action) (sound : broker.Sound)
    (identity : JobIdentity) :
    (broker.perform action).places identity = broker.places identity + if broker.accepted action = some identity then 1 else 0 := by
  cases effect with
  | submits ticket _ _ accepts _ submitted => simp only [submitted.places_eq, accepts, Option.some_inj]
  | completes _ _ _ _ accepts _ completed => simp only [completed.places_eq sound, accepts, reduceCtorEq, if_false, Nat.add_zero]
  | schedules now pressure same =>
    subst same
    exact (scheduleLoop_sound now pressure _ sound).2 identity
  | changes _ accepts _ changes => simp only [(changes.keep sound).2, accepts, reduceCtorEq, if_false, Nat.add_zero]

structure Fresh (capacity : BrokerCapacity) (broker : WorkerBroker) : Prop where
  given : broker.capacity = capacity
  valid : capacity.validate = .ok ()
  queued : broker.queued = []
  active : broker.active = ∅
  completed : broker.completed = ∅
  terminal : broker.terminalWithoutReceipt = ∅
  sequence : broker.nextReceiptSequence = 0

theorem new_fresh {capacity : BrokerCapacity} {policy : RuntimePolicy} {aging : Duration}
    (made : new capacity policy aging = .ok broker) : Fresh capacity broker := by
  unfold new at made
  simp only [bind_unit_ok] at made
  obtain ⟨valid, -, -, made⟩ := made
  cases made
  exact ⟨rfl, valid, rfl, rfl, rfl, rfl, rfl⟩

namespace Fresh

variable {capacity : BrokerCapacity}

theorem places_eq (fresh : Fresh capacity broker) (identity : JobIdentity) : broker.places identity = 0 := by
  simp only [places, fresh.queued, fresh.active, fresh.completed, fresh.terminal, List.countP_nil, not_mem_empty,
    ExtTreeSet.not_mem_empty, if_false]

theorem sound (fresh : Fresh capacity broker) : broker.Sound where
  capacity := by rw [fresh.given]; exact fresh.valid
  keyed := by
    intro identity job held
    rw [fresh.active, getElem?_empty] at held
    cases held
  once := by
    intro identity
    rw [fresh.places_eq]
    exact Nat.zero_le 1
  known := fun identity placed => absurd (fresh.places_eq identity) placed
  single := fun identity other live => absurd (fresh.places_eq identity) (places_of_live live)
  possible := by
    intro job member
    rw [fresh.queued] at member
    cases member

end Fresh

end Audec.Broker.WorkerBroker
