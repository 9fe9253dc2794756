import Audec.PluginWire.Session
import Audec.Lib.Runs

/-! Requests, phases and process counters that belong together. -/

open Machine Checked Entries Runs Std.ExtTreeMap
open Std (ExtTreeMap)

namespace Audec.PluginWire

def Pending.token : Pending → Option TokenDto
  | .scan _ => none
  | .instantiate token => some token
  | .parameters token => some token
  | .state token => some token

namespace SessionValidator

variable {session : SessionValidator}

section

variable (session : SessionValidator)

@[simp] theorem find_put (token other : TokenDto) (state : InstanceState) :
    (session.put token state).find other = if token = other then some state else session.find other := by
  unfold put find
  rw [lookup_insert]
  have same : token.text = other.text ↔ token = other := by
    cases token
    cases other
    simp
  simp only [same]

@[simp] theorem find_drop (token other : TokenDto) :
    (session.drop token).find other = if token = other then none else session.find other := by
  unfold drop find
  rw [lookup_erase]
  have same : token.text = other.text ↔ token = other := by
    cases token
    cases other
    simp
  simp only [same]

@[simp] theorem put_pending (token : TokenDto) (state : InstanceState) :
    (session.put token state).pending = session.pending := rfl

@[simp] theorem drop_pending (token : TokenDto) : (session.drop token).pending = session.pending := rfl

end

structure Sound (session : SessionValidator) : Prop where
  named : ∀ (id : U64) (request : Pending) (token : TokenDto), session.pending[id]? = some request →
    request.token = some token → ∃ state, session.find token = some state
  starting : ∀ (token : TokenDto) (state : InstanceState), session.find token = some state → state.phase = .instantiating →
    ∃ id : U64, session.pending[id]? = some (.instantiate token)
  once : ∀ (id other : U64) (token : TokenDto), session.pending[id]? = some (.instantiate token) →
    session.pending[other]? = some (.instantiate token) → other = id
  kind : ∀ (id : U64) (request : Pending) (token : TokenDto) (state : InstanceState), session.pending[id]? = some request →
    request.token = some token → session.find token = some state →
      (state.phase = .instantiating ↔ request = .instantiate token)
  processing : ∀ (token : TokenDto) (state : InstanceState), session.find token = some state →
    state.pendingProcess ≠ none → state.phase = .active

def NoInstantiation (session : SessionValidator) (id : U64) : Prop :=
  ∀ token, session.pending[id]? ≠ some (.instantiate token)

def Unrequested (session : SessionValidator) (token : TokenDto) : Prop :=
  ∀ (id : U64) (request : Pending), session.pending[id]? = some request → request.token ≠ some token

variable {id : U64} {request : Pending} {token : TokenDto} {phase : Phase} {message : Message}

section

variable (sound : Sound session)
include sound

theorem Sound.reserve (free : NoInstantiation session id)
    (other : ∀ token, request ≠ .instantiate token)
    (known : ∀ token, request.token = some token → ∃ state, session.find token = some state ∧ state.phase ≠ .instantiating) :
    Sound { session with pending := session.pending.insert id request } := by
  have instantiations {other' : U64} {token : TokenDto} : (session.pending.insert id request)[other']? = some (.instantiate token) ↔
      session.pending[other']? = some (.instantiate token) := by
    rw [lookup_insert]
    split
    · rename_i same
      subst same
      exact ⟨fun same => absurd (Option.some.inj same) (other token), fun held => absurd held (free token)⟩
    · exact Iff.rfl
  refine ⟨?_, ?_, ?_, ?_, sound.processing⟩
  · intro id' request' token held about
    dsimp only at held
    rcases held_insert.mp held with ⟨-, rfl⟩ | ⟨-, held⟩
    · obtain ⟨state, found, -⟩ := known token about
      exact ⟨state, found⟩
    · exact sound.named id' request' token held about
  · intro token state found phase
    obtain ⟨id', held⟩ := sound.starting token state found phase
    exact ⟨id', instantiations.mpr held⟩
  · intro id' other' token held held'
    exact sound.once id' other' token (instantiations.mp held) (instantiations.mp held')
  · intro id' request' token state held about found
    dsimp only at held
    rcases held_insert.mp held with ⟨-, rfl⟩ | ⟨-, held⟩
    · obtain ⟨state', found', phase⟩ := known token about
      change session.find token = some state at found
      rw [found] at found'
      cases found'
      exact ⟨fun same => absurd same phase, fun same => absurd same (other token)⟩
    · exact sound.kind id' request' token state held about found

theorem Sound.take (free : NoInstantiation session id) :
    Sound { session with pending := session.pending.erase id } := by
  have kept {other : U64} {request : Pending} (held : (session.pending.erase id)[other]? = some request) :
      session.pending[other]? = some request := by
    rw [lookup_erase] at held
    split at held
    · cases held
    · exact held
  refine ⟨?_, ?_, ?_, ?_, sound.processing⟩
  · intro id' request token held about
    exact sound.named id' request token (kept held) about
  · intro token state found phase
    obtain ⟨id', held⟩ := sound.starting token state found phase
    refine ⟨id', ?_⟩
    dsimp only
    rw [lookup_erase, if_neg]
    · exact held
    · rintro rfl
      exact free token held
  · intro id' other token held held'
    exact sound.once id' other token (kept held) (kept held')
  · intro id' request token state held about found
    exact sound.kind id' request token state (kept held) about found

theorem Sound.put {before after : InstanceState}
    (found : session.find token = some before) (past : before.phase ≠ .instantiating) (past' : after.phase ≠ .instantiating)
    (processing : after.pendingProcess ≠ none → after.phase = .active) : Sound (session.put token after) := by
  refine ⟨?_, ?_, sound.once, ?_, ?_⟩
  · intro id request other held about
    rw [find_put]
    split
    · exact ⟨after, rfl⟩
    · exact sound.named id request other held about
  · intro other state found' phase
    rw [find_put] at found'
    split at found'
    · cases found'
      exact absurd phase past'
    · exact sound.starting other state found' phase
  · intro id request other state held about found'
    rw [find_put] at found'
    split at found'
    · rename_i same
      subst same
      cases found'
      have before' := sound.kind id request token before held about found
      exact ⟨fun phase => absurd phase past', fun same => absurd (before'.mpr same) past⟩
    · exact sound.kind id request other state held about found'
  · intro other state found' running
    rw [find_put] at found'
    split at found'
    · cases found'
      exact processing running
    · exact sound.processing other state found' running

theorem Sound.drop (unrequested : Unrequested session token) :
    Sound (session.drop token) := by
  have kept {other : TokenDto} {state : InstanceState} (found : (session.drop token).find other = some state) :
      session.find other = some state := by
    rw [find_drop] at found
    split at found
    · cases found
    · exact found
  refine ⟨?_, ?_, sound.once, ?_, ?_⟩
  · intro id request other held about
    obtain ⟨state, found⟩ := sound.named id request other held about
    refine ⟨state, ?_⟩
    rw [find_drop, if_neg]
    · exact found
    · rintro rfl
      exact unrequested id request held about
  · intro other state found phase
    exact sound.starting other state (kept found) phase
  · intro id request other state held about found
    exact sound.kind id request other state held about (kept found)
  · intro other state found running
    exact sound.processing other state (kept found) running

theorem Sound.launch (free : session.pending[id]? = none)
    (unknown : session.find token = none) (plugin : PluginKeyDto) :
    Sound ({ session with pending := session.pending.insert id (.instantiate token) }.put token ⟨plugin, .instantiating, 0, none⟩) := by
  have old {other : U64} {request : Pending} (held : (session.pending.insert id (.instantiate token))[other]? = some request) :
      (other = id ∧ request = .instantiate token) ∨ (other ≠ id ∧ session.pending[other]? = some request) := by
    rcases held_insert.mp held with ⟨same, rfl⟩ | ⟨different, held⟩
    · exact .inl ⟨same.symm, rfl⟩
    · exact .inr ⟨Ne.symm different, held⟩
  have unrequested {other : U64} {request : Pending} (held : session.pending[other]? = some request) : request.token ≠ some token := by
    intro about
    obtain ⟨state, found⟩ := sound.named other request token held about
    rw [unknown] at found
    cases found
  have lookup (other : TokenDto) : ({ session with pending := session.pending.insert id (.instantiate token) }.put token
      ⟨plugin, .instantiating, 0, none⟩).find other =
        if token = other then some ⟨plugin, .instantiating, 0, none⟩ else session.find other := find_put _ _ _ _
  refine ⟨?_, ?_, ?_, ?_, ?_⟩
  · intro other request named held about
    rw [lookup]
    split
    · exact ⟨_, rfl⟩
    · rename_i different
      rcases old held with ⟨-, rfl⟩ | ⟨-, held'⟩
      · exact absurd (Option.some.inj about) different
      · exact sound.named other request named held' about
  · intro other state found phase
    rw [lookup] at found
    split at found
    · rename_i same
      subst same
      refine ⟨id, ?_⟩
      exact (lookup_insert _ _ _ _).trans (if_pos rfl)
    · obtain ⟨id', held⟩ := sound.starting other state found phase
      refine ⟨id', (lookup_insert _ _ _ _).trans ((if_neg ?_).trans held)⟩
      rintro rfl
      rw [free] at held
      cases held
  · intro first second named held held'
    rcases old held with ⟨rfl, same⟩ | ⟨different, before⟩
    · cases same
      rcases old held' with ⟨rfl, -⟩ | ⟨-, before⟩
      · rfl
      · exact absurd rfl (unrequested before)
    · rcases old held' with ⟨rfl, same⟩ | ⟨-, before'⟩
      · cases same
        exact absurd rfl (unrequested before)
      · exact sound.once first second named before before'
  · intro other request named state held about found
    rw [lookup] at found
    split at found
    · rename_i same
      subst same
      cases found
      rcases old held with ⟨-, rfl⟩ | ⟨-, before⟩
      · exact ⟨fun _ => rfl, fun _ => rfl⟩
      · exact absurd about (unrequested before)
    · rename_i different
      rcases old held with ⟨-, rfl⟩ | ⟨-, before⟩
      · exact absurd (Option.some.inj about) different
      · exact sound.kind other request named state before about found
  · intro other state found running
    rw [lookup] at found
    split at found
    · cases found
      exact absurd rfl running
    · exact sound.processing other state found running

section

variable (held : session.pending[id]? = some (.instantiate token))
include held

theorem Sound.others {other : U64}
    (kept : (session.pending.erase id)[other]? = some request) : session.pending[other]? = some request ∧ request.token ≠ some token := by
  rw [lookup_erase] at kept
  split at kept
  · cases kept
  rename_i different
  refine ⟨kept, ?_⟩
  intro about
  obtain ⟨state, found⟩ := sound.named id _ token held rfl
  have starting := (sound.kind id _ token state held rfl found).mpr rfl
  have same := (sound.kind other request token state kept about found).mp starting
  rw [same] at kept
  exact different (sound.once other id token kept held)

theorem Sound.started {state : InstanceState} (found : session.find token = some state) :
    Sound ({ session with pending := session.pending.erase id }.put token { state with phase := .instantiated }) := by
  have starting := (sound.kind id _ token state held rfl found).mpr rfl
  have lookup (other : TokenDto) : ({ session with pending := session.pending.erase id }.put token
      { state with phase := .instantiated }).find other =
        if token = other then some { state with phase := .instantiated } else session.find other := find_put _ _ _ _
  refine ⟨?_, ?_, ?_, ?_, ?_⟩
  · intro other request named kept about
    rw [lookup]
    split
    · exact ⟨_, rfl⟩
    · exact sound.named other request named (sound.others held kept).1 about
  · intro other state' found' phase
    rw [lookup] at found'
    split at found'
    · cases found'
      cases phase
    · rename_i different
      obtain ⟨id', held'⟩ := sound.starting other state' found' phase
      refine ⟨id', (lookup_erase _ _ _).trans ((if_neg ?_).trans held')⟩
      rintro rfl
      rw [held] at held'
      cases held'
      exact different rfl
  · intro first second named kept kept'
    exact sound.once first second named (sound.others held kept).1 (sound.others held kept').1
  · intro other request named state' kept about found'
    obtain ⟨before, elsewhere⟩ := sound.others held kept
    rw [lookup] at found'
    split at found'
    · rename_i same
      subst same
      exact absurd about elsewhere
    · exact sound.kind other request named state' before about found'
  · intro other state' found' running
    rw [lookup] at found'
    split at found'
    · cases found'
      have active := sound.processing token state found running
      rw [starting] at active
      cases active
    · exact sound.processing other state' found' running

theorem Sound.aborted :
    Sound ({ session with pending := session.pending.erase id }.drop token) := by
  have lookup {other : TokenDto} {state : InstanceState}
      (found : ({ session with pending := session.pending.erase id }.drop token).find other = some state) :
      token ≠ other ∧ session.find other = some state := by
    rw [find_drop] at found
    split at found
    · cases found
    · exact ⟨‹_›, found⟩
  refine ⟨?_, ?_, ?_, ?_, ?_⟩
  · intro other request named kept about
    obtain ⟨before, elsewhere⟩ := sound.others held kept
    obtain ⟨state, found⟩ := sound.named other request named before about
    refine ⟨state, ?_⟩
    rw [find_drop, if_neg]
    · exact found
    · rintro rfl
      exact elsewhere about
  · intro other state found phase
    obtain ⟨different, found'⟩ := lookup found
    obtain ⟨id', held'⟩ := sound.starting other state found' phase
    refine ⟨id', (lookup_erase _ _ _).trans ((if_neg ?_).trans held')⟩
    rintro rfl
    rw [held] at held'
    cases held'
    exact different rfl
  · intro first second named kept kept'
    exact sound.once first second named (sound.others held kept).1 (sound.others held kept').1
  · intro other request named state kept about found
    exact sound.kind other request named state (sound.others held kept).1 about (lookup found).2
  · intro other state found running
    exact sound.processing other state (lookup found).2 running

end

theorem onInstance_sound {allowed : Phase → Bool} {refusal : String}
    {next : InstanceState → Transition}
    (step : ∀ state, session.find token = some state → allowed state.phase = true → Sound (next state).1) :
    Sound (session.onInstance token allowed refusal next).1 := by
  unfold onInstance
  split
  · exact sound
  · split
    · exact step _ ‹_› ‹_›
    · exact sound

theorem advance_sound (token : TokenDto) {required next : Phase} (started : required ≠ .instantiating)
    (started' : next ≠ .instantiating) (idle : required ≠ .active) : Sound (session.advance token required next).1 := by
  apply onInstance_sound sound
  intro state found phase
  have here : state.phase = required := of_decide_eq_true phase
  refine sound.put found (fun same => started (here ▸ same)) started' ?_
  intro running
  exact absurd (sound.processing token state found running) (here ▸ idle)

theorem answer_sound {next : SessionValidator → Pending → Transition}
    (step : ∀ request, session.pending[id]? = some request →
      Sound (next { session with pending := session.pending.erase id } request).1) : Sound (session.answer id next).1 := by
  unfold answer take
  split
  · exact sound
  · rename_i taken request same
    obtain ⟨rfl, held⟩ := Prod.mk.inj same
    exact step request held

end

/-- A message keeps requests and instances together: it does not reuse or answer the request of an instantiation as
    another, and no instance goes that a request is still about. -/
def Careful (session : SessionValidator) : Message → Prop
  | .scan request => NoInstantiation session request.requestId
  | .instantiate request => session.find request.token = none → session.pending[request.requestId]? = none
  | .setParameters request => (∃ state, session.find request.token = some state ∧ canTakeParameters state.phase = true) →
      NoInstantiation session request.requestId
  | .saveState request => (∃ state, session.find request.token = some state ∧ canTakeParameters state.phase = true) →
      NoInstantiation session request.requestId
  | .scanReady requestId _ => NoInstantiation session requestId
  | .scanFailed requestId _ => NoInstantiation session requestId
  | .parametersSet requestId _ => NoInstantiation session requestId
  | .stateSaved requestId _ => NoInstantiation session requestId
  | .instantiated requestId token => ∀ expected, session.pending[requestId]? = some (.instantiate expected) → expected = token
  | .destroyed token => ∀ state, session.find token = some state → state.phase = .destroying → Unrequested session token
  | .error failure => failure.recoverable = false → (∀ id, failure.requestId = some id → session.pending[id]? ≠ none) →
      ∀ token, failure.token = some token → ∀ (id : U64) (request : Pending), session.pending[id]? = some request →
        failure.requestId ≠ some id → request.token ≠ some token
  | _ => True

theorem canTakeParameters_started (able : canTakeParameters phase = true) : phase ≠ .instantiating := by
  rintro rfl
  cases able

theorem canActivate_started (able : canActivate phase = true) : phase ≠ .instantiating ∧ phase ≠ .active := by
  constructor <;> rintro rfl <;> cases able

theorem canDestroy_started (able : canDestroy phase = true) : phase ≠ .instantiating ∧ phase ≠ .active := by
  constructor <;> rintro rfl <;> cases able

theorem reserve_sound (sound : Sound session) (free : NoInstantiation session id)
    (other : ∀ token, request ≠ .instantiate token)
    (known : ∀ token, request.token = some token → ∃ state, session.find token = some state ∧ state.phase ≠ .instantiating) :
    Sound (session.reserve id request).1 := by
  have reserved := sound.reserve free other known
  unfold SessionValidator.reserve
  dsimp only
  split <;> exact reserved

theorem instantiate_sound (sound : Sound session) (request : InstantiateDto)
    (careful : session.find request.token = none → session.pending[request.requestId]? = none) :
    Sound (session.instantiate request).1 := by
  unfold instantiate
  split
  · exact sound
  · rename_i unknown
    have free := careful unknown
    unfold SessionValidator.reserve
    dsimp only
    rw [if_pos free]
    exact sound.launch free unknown request.plugin

theorem command_sound (sound : Sound session) (careful : Careful session message) :
    Sound (session.command message).1 := by
  cases message with
  | scan request => exact reserve_sound sound careful (fun _ => nofun) nofun
  | instantiate request => exact instantiate_sound sound request careful
  | bindSharedMemory binding => exact advance_sound sound binding.token nofun nofun nofun
  | activate token =>
    apply onInstance_sound sound
    intro state found able
    obtain ⟨started, idle⟩ := canActivate_started able
    exact sound.put found started nofun fun running => absurd (sound.processing token state found running) idle
  | setParameters request =>
    apply onInstance_sound sound
    intro state found able
    refine reserve_sound sound (careful ⟨state, found, able⟩) (fun _ => nofun) ?_
    rintro _ ⟨⟩
    exact ⟨state, found, canTakeParameters_started able⟩
  | process token processSequence frames inputEventCount =>
    apply onInstance_sound sound
    intro state found active
    have here : state.phase = .active := of_decide_eq_true active
    split
    · exact sound.put found (by rw [here]; exact nofun) (by rw [here]; exact nofun) fun _ => here
    · exact sound
  | saveState request =>
    apply onInstance_sound sound
    intro state found able
    refine reserve_sound sound (careful ⟨state, found, able⟩) (fun _ => nofun) ?_
    rintro _ ⟨⟩
    exact ⟨state, found, canTakeParameters_started able⟩
  | deactivate token =>
    apply onInstance_sound sound
    intro state found active
    have here : state.phase = .active := of_decide_eq_true active
    split
    · rename_i still
      exact sound.put found (by rw [here]; exact nofun) nofun fun running => absurd still running
    · exact sound
  | destroy token =>
    apply onInstance_sound sound
    intro state found able
    obtain ⟨started, idle⟩ := canDestroy_started able
    exact sound.put found started nofun fun running => absurd (sound.processing token state found running) idle
  | _ => exact sound

theorem forget_sound {left : SessionValidator} (sound : Sound left) {failure : RuntimeFailureDto}
    (careful : Careful session (.error failure))
    (kept : ∀ (id : U64) (request : Pending), left.pending[id]? = some request →
      session.pending[id]? = some request ∧ failure.requestId ≠ some id)
    (known : ∀ id, failure.requestId = some id → session.pending[id]? ≠ none) : Sound (left.forget failure).1 := by
  unfold forget
  split
  · rename_i token named
    split
    · exact sound
    · rename_i unrecoverable
      apply sound.drop
      intro id request held
      obtain ⟨before, other⟩ := kept id request held
      exact careful (eq_false_of_ne_true unrecoverable) known token named id request before other
  · exact sound

section

variable (sound : Sound session)
include sound

theorem failed_sound (failure : RuntimeFailureDto) (careful : Careful session (.error failure)) :
    Sound (session.failed failure).1 := by
  unfold failed
  split
  · rename_i none'
    refine forget_sound sound careful (fun id request held => ⟨held, ?_⟩) ?_
    · rw [none']
      exact nofun
    · rw [none']
      exact nofun
  · rename_i id some'
    apply answer_sound sound
    intro request held
    have known : ∀ other, failure.requestId = some other → session.pending[other]? ≠ none := by
      intro other same
      rw [some'] at same
      cases same
      rw [held]
      exact nofun
    have kept : ∀ (other : U64) (request : Pending), (session.pending.erase id)[other]? = some request →
        session.pending[other]? = some request ∧ failure.requestId ≠ some other := by
      intro other request left
      rw [lookup_erase] at left
      split at left
      · cases left
      · rename_i different
        exact ⟨left, by rw [some']; exact fun same => different (Option.some.inj same)⟩
    split
    · exact forget_sound (sound.aborted held) careful kept known
    · rename_i other
      refine forget_sound (sound.take ?_) careful kept known
      intro token instantiation
      rw [held] at instantiation
      exact other token (Option.some.inj instantiation)

theorem response_sound (careful : Careful session message) :
    Sound (session.response message).1 := by
  cases message with
  | scanReady requestId record =>
    apply answer_sound sound
    intro request held
    have taken := sound.take careful
    split
    · split <;> exact taken
    · exact taken
  | scanFailed requestId failure =>
    apply answer_sound sound
    intro request held
    have taken := sound.take careful
    split <;> exact taken
  | instantiated requestId token =>
    apply answer_sound sound
    intro request held
    split
    · rename_i expected
      have same := careful expected held
      rw [if_pos same]
      subst same
      obtain ⟨state, found⟩ := sound.named requestId _ expected held rfl
      have starting := (sound.kind requestId _ expected state held rfl found).mpr rfl
      have found' : ({ session with pending := session.pending.erase requestId } : SessionValidator).find expected = some state := found
      unfold advance onInstance
      rw [found']
      dsimp only
      rw [if_pos (decide_eq_true starting)]
      exact sound.started held found
    · rename_i other
      refine sound.take ?_
      intro expected instantiation
      rw [held] at instantiation
      exact other expected (Option.some.inj instantiation)
  | bound token => exact advance_sound sound token nofun nofun nofun
  | activated token => exact advance_sound sound token nofun nofun nofun
  | parametersSet requestId token =>
    apply answer_sound sound
    intro request held
    have taken := sound.take careful
    split
    · split <;> exact taken
    · exact taken
  | processed token processSequence =>
    apply onInstance_sound sound
    intro state found active
    have here : state.phase = .active := of_decide_eq_true active
    split
    · exact sound.put found (by rw [here]; exact nofun) (by rw [here]; exact nofun) fun running => absurd rfl running
    · exact sound
  | stateSaved requestId artifact =>
    apply answer_sound sound
    intro request held
    have taken := sound.take careful
    split
    · apply onInstance_sound taken
      intro state _ _
      split <;> exact taken
    · exact taken
  | latencyChanged token => exact onInstance_sound sound fun _ _ _ => sound
  | tailChanged token => exact onInstance_sound sound fun _ _ _ => sound
  | deactivated token => exact advance_sound sound token nofun nofun nofun
  | destroyed token =>
    apply onInstance_sound sound
    intro state found destroying
    exact sound.drop (careful state found (of_decide_eq_true destroying))
  | error failure => exact failed_sound sound failure careful
  | _ => exact sound

theorem Sound.same {after : SessionValidator} (pending : after.pending = session.pending)
    (instances : after.instances = session.instances) : Sound after := by
  obtain ⟨_, _, _, _, _⟩ := after
  dsimp only at pending instances
  subst pending instances
  exact ⟨sound.named, sound.starting, sound.once, sound.kind, sound.processing⟩

theorem controllerTransition_sound
    (careful : session.handshake = .ready → Careful session message) : Sound (session.controllerTransition message).1 := by
  unfold controllerTransition
  split
  · exact sound.same rfl rfl
  · split
    · exact sound.same rfl rfl
    · exact sound
  · exact command_sound sound (careful ‹_›)
  · exact sound

theorem workerTransition_sound
    (careful : session.handshake = .ready → Careful session message) : Sound (session.workerTransition message).1 := by
  unfold workerTransition
  split
  · exact sound.same rfl rfl
  · exact response_sound sound (careful ‹_›)
  · exact sound

end

end SessionValidator

inductive Observation where
  | controller (envelope : Envelope)
  | worker (envelope : Envelope)

namespace Observation

def envelope : Observation → Envelope
  | .controller envelope => envelope
  | .worker envelope => envelope

end Observation

open SessionValidator

def observe (session : SessionValidator) : Observation → SessionValidator
  | .controller envelope => (session.observeController envelope).1
  | .worker envelope => (session.observeWorker envelope).1

/-- Whether an envelope passes the checks that come before its transition. -/
def Admitted (session : SessionValidator) : Observation → Prop
  | .controller envelope => admits .controllerToWorker "controller" session.controllerSequence envelope = .ok ()
  | .worker envelope => admits .workerToController "worker" session.workerSequence envelope = .ok ()

def CarefulStep (event : Event SessionValidator Observation) : Prop :=
  Admitted event.before event.action → event.before.handshake = .ready → Careful event.before event.action.envelope.message

theorem observe_sound {session : SessionValidator} (sound : Sound session) {observation : Observation}
    (careful : CarefulStep ⟨session, observation⟩) : Sound (observe session observation) := by
  cases observation with
  | controller envelope =>
    unfold observe observeController
    dsimp only
    split
    · exact sound
    · rename_i admitted
      have step : Sound (session.controllerTransition envelope.message).1 :=
        controllerTransition_sound sound (careful admitted)
      split
      · rename_i after error same
        rw [same] at step
        exact step
      · rename_i after same
        rw [same] at step
        exact step.same rfl rfl
  | worker envelope =>
    unfold observe observeWorker
    dsimp only
    split
    · exact sound
    · rename_i admitted
      have step : Sound (session.workerTransition envelope.message).1 :=
        workerTransition_sound sound (careful admitted)
      split
      · rename_i after error same
        rw [same] at step
        exact step
      · rename_i after same
        rw [same] at step
        exact step.same rfl rfl

/-- Requests name instances, instances that start have one request for it, processing is for active instances, and a
    session with nothing left to do can be shut down. -/
structure Coherent (session : SessionValidator) : Prop where
  named : ∀ (id : U64) (request : Pending) (token : TokenDto), session.pending[id]? = some request →
    request.token = some token → ∃ state, session.find token = some state
  instantiating : ∀ (token : TokenDto) (state : InstanceState), session.find token = some state →
    (state.phase = .instantiating ↔ ∃! id : U64, session.pending[id]? = some (.instantiate token))
  processing : ∀ (token : TokenDto) (state : InstanceState), session.find token = some state →
    state.pendingProcess ≠ none → state.phase = .active
  shutdown : session.handshake = .ready → session.instances = ∅ → session.pending = ∅ → ∀ envelope : Envelope,
    envelope.message = .shutdown → Admitted session (.controller envelope) → (session.observeController envelope).2 = .ok ()

theorem SessionValidator.Sound.coherent {session : SessionValidator} (sound : Sound session) : Coherent session := by
  refine ⟨sound.named, ?_, sound.processing, ?_⟩
  · intro token state found
    constructor
    · intro phase
      obtain ⟨id, held⟩ := sound.starting token state found phase
      exact ⟨id, held, fun other held' => sound.once id other token held held'⟩
    · rintro ⟨id, held, -⟩
      exact (sound.kind id _ token state held rfl found).mpr rfl
  · intro ready noInstance noRequest envelope same admitted
    unfold Admitted at admitted
    unfold observeController controllerTransition
    rw [admitted, same, ready]
    dsimp only
    rw [noInstance, noRequest]
    rfl

def smallWorker : CapabilitiesDto where
  workerName := "w"
  workerVersion := "1"
  workerBuildSha256 := "0000000000000000000000000000000000000000000000000000000000000000"
  formats := [.clap]
  architectures := [.x86_64]
  scanning := true
  realtime := false
  offline := false
  maximumInstances := 1

def firstToken : TokenDto := ⟨"00000000000000000000000000000002"⟩

def smallInstance : InstantiateDto where
  requestId := 1
  token := firstToken
  artifactLease := ⟨"00000000000000000000000000000001"⟩
  plugin := ⟨.clap, "p"⟩
  contract := ⟨48000, 1, 64, []⟩
  artifact := none
  state := none

def repeatedRequest : List Observation :=
  [.controller ⟨1, 0, .hello⟩, .worker ⟨1, 0, .capabilities smallWorker⟩, .controller ⟨1, 1, .instantiate smallInstance⟩,
    .controller ⟨1, 2, .scan ⟨1, "/p", 1, 1, 1⟩⟩]

end Audec.PluginWire
