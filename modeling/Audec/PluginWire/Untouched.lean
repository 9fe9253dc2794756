import Audec.PluginWire.Coherence

/-! Which rejected envelopes leave a session as it was. -/

open Machine Checked Entries Runs Option Std.ExtTreeMap
open Std (ExtTreeMap)

namespace Audec.PluginWire

namespace SessionValidator

variable {session : SessionValidator}

/-- A transition that fails has changed nothing. -/
def Restores (session : SessionValidator) (transition : Transition) : Prop :=
  ∀ error, transition.2 = .error error → transition.1 = session

theorem restores_accept (after : SessionValidator) : Restores session after.accept := nofun

variable {after : SessionValidator} {id : U64} {request : Pending} {message : Message}

variable {detail : String} {token : TokenDto} {requestId : U64}

theorem restores_reject : Restores session (after.reject detail) ↔ after = session :=
  ⟨fun restores => restores _ rfl, fun same _ _ => same⟩

section

variable (session : SessionValidator)

/-- A request that could be pending under its identifier already, but no other one. -/
def Reservable (id : U64) (request : Pending) : Prop :=
  ∀ other, session.pending[id]? = some other → other = request

def CommandTraceless : Message → Prop
  | .scan request => session.Reservable request.requestId (.scan request.candidatePath)
  | .instantiate request => session.find request.token = none → session.Reservable request.requestId (.instantiate request.token)
  | .setParameters request => ∀ state, session.find request.token = some state → canTakeParameters state.phase = true →
      session.Reservable request.requestId (.parameters request.token)
  | .saveState request => ∀ state, session.find request.token = some state → canTakeParameters state.phase = true →
      session.Reservable request.requestId (.state request.token)
  | _ => True

/-- What a worker's answer needs in order to leave no trace where it is rejected: it takes the request before it is compared. -/
def ResponseTraceless : Message → Prop
  | .scanReady requestId record => ∀ request, session.pending[requestId]? = some request → request = .scan record.canonicalPath
  | .scanFailed requestId _ => ∀ request, session.pending[requestId]? = some request → ∃ path, request = .scan path
  | .instantiated requestId token => ∀ request, session.pending[requestId]? = some request → request = .instantiate token ∧
      ∃ state, session.find token = some state ∧ state.phase = .instantiating
  | .parametersSet requestId token => ∀ request, session.pending[requestId]? = some request → request = .parameters token
  | .stateSaved requestId artifact => ∀ request, session.pending[requestId]? = some request → ∃ token, request = .state token ∧
      ∃ state, session.find token = some state ∧ state.plugin = artifact.plugin
  | _ => True

end

theorem insert_eq_self :
    session.pending.insert id request = session.pending ↔ session.pending[id]? = some request := by
  constructor
  · intro same
    rw [← same]
    exact getElem?_insert_self
  · intro held
    apply ext_getElem?
    intro other
    rw [lookup_insert]
    split
    · rename_i same
      rw [← same, held]
    · rfl

theorem reserve_restores :
    Restores session (session.reserve id request) ↔ session.Reservable id request := by
  unfold SessionValidator.reserve Reservable
  dsimp only
  cases held : session.pending[id]? with
  | none =>
    rw [if_pos rfl]
    exact ⟨fun _ _ => nofun, fun _ => restores_accept _⟩
  | some other =>
    rw [if_neg nofun, restores_reject]
    have same : ({ session with pending := session.pending.insert id request } : SessionValidator) = session ↔
        session.pending.insert id request = session.pending :=
      ⟨congrArg SessionValidator.pending, fun same => by rw [same]⟩
    rw [same, insert_eq_self, held]
    simp only [some.injEq, forall_eq']

theorem onInstance_restores {allowed : Phase → Bool} {refusal : String} {next : InstanceState → Transition} :
    Restores session (session.onInstance token allowed refusal next) ↔
      ∀ state, session.find token = some state → allowed state.phase = true → Restores session (next state) := by
  unfold onInstance
  cases session.find token with
  | none => exact ⟨fun _ _ => nofun, fun _ => restores_reject.mpr rfl⟩
  | some state =>
    simp only [some.injEq, forall_eq']
    split
    · rename_i able
      exact ⟨fun restores _ => restores, fun restores => restores able⟩
    · rename_i unable
      exact ⟨fun _ able => absurd able unable, fun _ => restores_reject.mpr rfl⟩

theorem advance_restores (token : TokenDto) (required next : Phase) : Restores session (session.advance token required next) :=
  onInstance_restores.mpr fun _ _ _ => restores_accept _

theorem taken_ne (held : session.pending[id]? = some request)
    (taken : after.pending = session.pending.erase id) : after ≠ session := by
  rintro rfl
  rw [taken, lookup_erase, if_pos rfl] at held
  cases held

theorem answer_restores {next : SessionValidator → Pending → Transition} :
    Restores session (session.answer id next) ↔ ∀ request, session.pending[id]? = some request →
      Restores session (next { session with pending := session.pending.erase id } request) := by
  unfold answer SessionValidator.take
  cases session.pending[id]? with
  | none => exact ⟨fun _ _ => nofun, fun _ => restores_reject.mpr rfl⟩
  | some request => simp only [some.injEq, forall_eq']

theorem compare_restores (held : session.pending[id]? = some request)
    (taken : after.pending = session.pending.erase id) {condition : Prop} [Decidable condition]
    : Restores session (if condition then after.accept else after.reject detail) ↔ condition := by
  split
  · rename_i holds
    exact ⟨fun _ => holds, fun _ => restores_accept _⟩
  · rename_i fails
    rw [restores_reject]
    exact ⟨fun same => absurd same (taken_ne held taken), fun holds => absurd holds fails⟩

theorem instantiate_restores {request : InstantiateDto} : Restores session (session.instantiate request) ↔
    (session.find request.token = none → session.Reservable request.requestId (.instantiate request.token)) := by
  unfold instantiate
  cases session.find request.token with
  | some state => exact ⟨fun _ => nofun, fun _ => restores_reject.mpr rfl⟩
  | none =>
    simp only [forall_const]
    rw [← reserve_restores]
    cases step : session.reserve request.requestId (.instantiate request.token) with
    | mk reserved result =>
      cases result with
      | error error => exact Iff.rfl
      | ok _ => exact ⟨fun _ => nofun, fun _ => restores_accept _⟩

theorem command_restores : Restores session (session.command message) ↔ session.CommandTraceless message := by
  cases message with
  | scan request => exact reserve_restores
  | instantiate request => exact instantiate_restores
  | setParameters request =>
    refine onInstance_restores.trans ?_
    exact forall_congr' fun _ => forall_congr' fun _ => forall_congr' fun _ => reserve_restores
  | saveState request =>
    refine onInstance_restores.trans ?_
    exact forall_congr' fun _ => forall_congr' fun _ => forall_congr' fun _ => reserve_restores
  | bindSharedMemory binding => exact iff_of_true (advance_restores _ _ _) trivial
  | activate token => exact iff_of_true (onInstance_restores.mpr fun _ _ _ => restores_accept _) trivial
  | process token processSequence frames inputEventCount =>
    refine iff_of_true (onInstance_restores.mpr fun state _ _ => ?_) trivial
    split
    · exact restores_accept _
    · exact restores_reject.mpr rfl
  | deactivate token =>
    refine iff_of_true (onInstance_restores.mpr fun state _ _ => ?_) trivial
    split
    · exact restores_accept _
    · exact restores_reject.mpr rfl
  | destroy token => exact iff_of_true (onInstance_restores.mpr fun _ _ _ => restores_accept _) trivial
  | _ => exact iff_of_true (restores_reject.mpr rfl) trivial

theorem forget_restores (left : SessionValidator) (failure : RuntimeFailureDto) : Restores session (left.forget failure) := by
  unfold forget
  split
  · split <;> exact restores_accept _
  · exact restores_accept _

theorem failed_restores (failure : RuntimeFailureDto) : Restores session (session.failed failure) := by
  unfold failed
  split
  · exact forget_restores _ _
  · apply answer_restores.mpr
    intro request _
    split <;> exact forget_restores _ _

theorem instantiated_restores :
    Restores session (session.response (.instantiated requestId token)) ↔
      session.ResponseTraceless (.instantiated requestId token) := by
  refine answer_restores.trans (forall₂_congr fun request held => ?_)
  cases request with
  | instantiate expected =>
    dsimp only
    rw [Pending.instantiate.injEq]
    by_cases same : expected = token
    · subst same
      rw [if_pos rfl]
      unfold advance onInstance
      split
      · rename_i unknown
        rw [restores_reject]
        refine ⟨fun same => absurd same (taken_ne held rfl), ?_⟩
        rintro ⟨-, state, found, -⟩
        exact absurd (unknown.symm.trans found) (some_ne_none state).symm
      · rename_i state found
        by_cases phase : state.phase = .instantiating
        · rw [if_pos (decide_eq_true phase)]
          exact ⟨fun _ => ⟨rfl, state, found, phase⟩, fun _ => restores_accept _⟩
        · rw [if_neg (fun same => phase (of_decide_eq_true same)), restores_reject]
          refine ⟨fun same => absurd same (taken_ne held rfl), ?_⟩
          rintro ⟨-, other, found', started⟩
          cases found.symm.trans found'
          exact absurd started phase
    · rw [if_neg same, restores_reject]
      exact ⟨fun same => absurd same (taken_ne held rfl), fun started => absurd started.1 same⟩
  | _ =>
    dsimp only
    rw [restores_reject]
    refine ⟨fun same => absurd same (taken_ne held rfl), ?_⟩
    rintro ⟨impossible, -⟩
    cases impossible

theorem stateSaved_restores {artifact : StateArtifactDto} :
    Restores session (session.response (.stateSaved requestId artifact)) ↔
      session.ResponseTraceless (.stateSaved requestId artifact) := by
  refine answer_restores.trans (forall₂_congr fun request held => ?_)
  cases request with
  | state token =>
    dsimp only
    simp only [Pending.state.injEq, exists_eq_left']
    unfold onInstance
    split
    · rename_i unknown
      rw [restores_reject]
      refine ⟨fun same => absurd same (taken_ne held rfl), ?_⟩
      rintro ⟨state, found, -⟩
      exact absurd (unknown.symm.trans found) (some_ne_none state).symm
    · rename_i state found
      rw [if_pos rfl, compare_restores held rfl]
      constructor
      · exact fun same => ⟨state, found, same⟩
      · rintro ⟨other, found', same⟩
        cases found.symm.trans found'
        exact same
  | _ =>
    dsimp only
    rw [restores_reject]
    refine ⟨fun same => absurd same (taken_ne held rfl), ?_⟩
    rintro ⟨_, ⟨⟩, _⟩

theorem response_restores : Restores session (session.response message) ↔ session.ResponseTraceless message := by
  cases message with
  | scanReady requestId record =>
    refine answer_restores.trans (forall₂_congr fun request held => ?_)
    cases request with
    | scan path =>
      dsimp only
      rw [compare_restores held rfl, Pending.scan.injEq]
    | _ =>
      dsimp only
      rw [restores_reject]
      exact ⟨fun same => absurd same (taken_ne held rfl), nofun⟩
  | scanFailed requestId failure =>
    refine answer_restores.trans (forall₂_congr fun request held => ?_)
    cases request with
    | scan path => exact iff_of_true (restores_accept _) ⟨path, rfl⟩
    | _ =>
      dsimp only
      rw [restores_reject]
      exact ⟨fun same => absurd same (taken_ne held rfl), nofun⟩
  | instantiated requestId token => exact instantiated_restores
  | parametersSet requestId token =>
    refine answer_restores.trans (forall₂_congr fun request held => ?_)
    cases request with
    | parameters expected =>
      dsimp only
      rw [compare_restores held rfl, Pending.parameters.injEq]
    | _ =>
      dsimp only
      rw [restores_reject]
      exact ⟨fun same => absurd same (taken_ne held rfl), nofun⟩
  | stateSaved requestId artifact => exact stateSaved_restores
  | bound token => exact iff_of_true (advance_restores _ _ _) trivial
  | activated token => exact iff_of_true (advance_restores _ _ _) trivial
  | processed token processSequence =>
    refine iff_of_true (onInstance_restores.mpr fun state _ _ => ?_) trivial
    split
    · exact restores_accept _
    · exact restores_reject.mpr rfl
  | latencyChanged token => exact iff_of_true (onInstance_restores.mpr fun _ _ _ => restores_accept _) trivial
  | tailChanged token => exact iff_of_true (onInstance_restores.mpr fun _ _ _ => restores_accept _) trivial
  | deactivated token => exact iff_of_true (advance_restores _ _ _) trivial
  | destroyed token => exact iff_of_true (onInstance_restores.mpr fun _ _ _ => restores_accept _) trivial
  | error failure => exact iff_of_true (failed_restores failure) trivial
  | _ => exact iff_of_true (restores_reject.mpr rfl) trivial

theorem controllerTransition_restores : Restores session (session.controllerTransition message) ↔
    (session.handshake = .ready → session.CommandTraceless message) := by
  unfold controllerTransition
  split
  · rename_i fresh
    exact iff_of_true (restores_accept _) fun ready => nomatch fresh.symm.trans ready
  · rename_i ready
    refine iff_of_true ?_ fun _ => trivial
    split
    · exact restores_accept _
    · exact restores_reject.mpr rfl
  · rw [command_restores]
    exact ⟨fun traceless _ => traceless, fun traceless => traceless ‹session.handshake = .ready›⟩
  · rename_i notReady _ _
    exact iff_of_true (restores_reject.mpr rfl) fun ready => (notReady ready).elim

theorem workerTransition_restores : Restores session (session.workerTransition message) ↔
    (session.handshake = .ready → session.ResponseTraceless message) := by
  unfold workerTransition
  split
  · exact iff_of_true (restores_accept _) fun _ => trivial
  · rw [response_restores]
    exact ⟨fun traceless _ => traceless, fun traceless => traceless ‹session.handshake = .ready›⟩
  · rename_i notReady _
    exact iff_of_true (restores_reject.mpr rfl) fun ready => (notReady ready).elim

end SessionValidator

open SessionValidator

variable {session : SessionValidator}

def respond (session : SessionValidator) : Observation → Transition
  | .controller envelope => session.observeController envelope
  | .worker envelope => session.observeWorker envelope

def Traceless (session : SessionValidator) : Observation → Prop
  | .controller envelope => session.CommandTraceless envelope.message
  | .worker envelope => session.ResponseTraceless envelope.message

theorem restores_counted {transition : Transition} {count : SessionValidator → SessionValidator} :
    Restores session (match transition with
      | (after, .error error) => (after, .error error)
      | (after, .ok ()) => (count after).accept) ↔ Restores session transition := by
  obtain ⟨after, _ | _⟩ := transition
  · exact Iff.rfl
  · exact iff_of_true (restores_accept _) nofun

/-- A rejected envelope leaves a session untouched unless it gets past the checks of a ready session and is one of the
    messages that were carried out in part by then. -/
theorem rejected_untouched_iff (session : SessionValidator) (observation : Observation) :
    (∀ error, (respond session observation).2 = .error error → (respond session observation).1 = session) ↔
      (Admitted session observation → session.handshake = .ready → Traceless session observation) := by
  cases observation with
  | controller envelope =>
    change Restores session (session.observeController envelope) ↔ _
    unfold observeController Admitted Traceless
    dsimp only
    rw [← controllerTransition_restores]
    split
    · rename_i error refused
      rw [refused]
      exact iff_of_true (fun _ _ => rfl) nofun
    · rename_i admitted
      rw [admitted]
      exact restores_counted.trans ⟨fun restores _ => restores, fun restores => restores rfl⟩
  | worker envelope =>
    change Restores session (session.observeWorker envelope) ↔ _
    unfold observeWorker Admitted Traceless
    dsimp only
    rw [← workerTransition_restores]
    split
    · rename_i error refused
      rw [refused]
      exact iff_of_true (fun _ _ => rfl) nofun
    · rename_i admitted
      rw [admitted]
      exact restores_counted.trans ⟨fun restores _ => restores, fun restores => restores rfl⟩

theorem repeated_request_touches : ∃ (events : List (Event SessionValidator Observation)) (session : SessionValidator)
    (observation : Observation) (error : WireError), Run observe (· = SessionValidator.new) events session ∧
      (respond session observation).2 = .error error ∧ (respond session observation).1 ≠ session := by
  obtain ⟨events, run, -⟩ := @Run.taking _ _ observe (· = SessionValidator.new) SessionValidator.new rfl
    (repeatedRequest.take 3)
  refine ⟨events, (repeatedRequest.take 3).foldl observe .new, .controller ⟨1, 2, .scan ⟨1, "/p", 1, 1, 1⟩⟩,
    .invalidTransition "duplicate pending request ID", run, by decide, ?_⟩
  intro same
  have pending := congrArg (fun session => session.pending.toList) same
  revert pending
  decide

end Audec.PluginWire
