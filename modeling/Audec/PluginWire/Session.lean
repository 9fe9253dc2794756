import Audec.PluginWire.Validate

/-! The session both sides of a plugin worker's wire keep in step. -/

open Machine Checked
open Std (ExtTreeMap)

namespace Audec.PluginWire

inductive Handshake where
  | fresh | waiting | ready | closed
  deriving DecidableEq

inductive Pending where
  | scan (path : String)
  | instantiate (token : TokenDto)
  | parameters (token : TokenDto)
  | state (token : TokenDto)
  deriving DecidableEq

inductive Phase where
  | instantiating | instantiated | binding | bound | activating | active | deactivating | inactive | destroying
  deriving DecidableEq

structure InstanceState where
  plugin : PluginKeyDto
  phase : Phase
  nextProcess : U64
  pendingProcess : Option U64
  deriving DecidableEq

abbrev PendingTable := ExtTreeMap U64 Pending

/-- Tokens are ordered by their text. -/
abbrev InstanceTable := ExtTreeMap String InstanceState

structure SessionValidator where
  controllerSequence : U64
  workerSequence : U64
  handshake : Handshake
  pending : PendingTable
  instances : InstanceTable

namespace SessionValidator

def new : SessionValidator where
  controllerSequence := 0
  workerSequence := 0
  handshake := .fresh
  pending := ∅
  instances := ∅

variable (session : SessionValidator)

def isClosed (session : SessionValidator) : Bool := session.handshake = .closed

/-- What a transition leaves, and whether it was accepted: an error does not undo what was done before it. -/
abbrev Transition := SessionValidator × Except WireError Unit

def accept : Transition := (session, .ok ())

def reject (detail : String) : Transition := (session, .error (.invalidTransition detail))

def find (token : TokenDto) : Option InstanceState := session.instances[token.text]?

def put (session : SessionValidator) (token : TokenDto) (state : InstanceState) : SessionValidator :=
  { session with instances := session.instances.insert token.text state }

def drop (session : SessionValidator) (token : TokenDto) : SessionValidator :=
  { session with instances := session.instances.erase token.text }

/-- The request is pending afterwards also where its identifier was already used. -/
def reserve (session : SessionValidator) (id : U64) (request : Pending) : Transition :=
  let reserved := { session with pending := session.pending.insert id request }
  if session.pending[id]? = none then reserved.accept else reserved.reject "duplicate pending request ID"

def take (session : SessionValidator) (id : U64) : SessionValidator × Option Pending :=
  ({ session with pending := session.pending.erase id }, session.pending[id]?)

def onInstance (session : SessionValidator) (token : TokenDto) (allowed : Phase → Bool) (refusal : String)
    (next : InstanceState → Transition) : Transition :=
  match session.find token with
  | none => session.reject "unknown instance"
  | some state => if allowed state.phase then next state else session.reject refusal

def advance (session : SessionValidator) (token : TokenDto) (required next : Phase) : Transition :=
  session.onInstance token (· = required) "instance lifecycle mismatch" fun state =>
    (session.put token { state with phase := next }).accept

def canTakeParameters : Phase → Bool
  | .bound => true
  | .active => true
  | .inactive => true
  | _ => false

def canActivate : Phase → Bool
  | .bound => true
  | .inactive => true
  | _ => false

def canDestroy : Phase → Bool
  | .instantiated => true
  | .bound => true
  | .inactive => true
  | _ => false

def instantiate (session : SessionValidator) (request : InstantiateDto) : Transition :=
  match session.find request.token with
  | some _ => session.reject "duplicate instance token"
  | none =>
    match session.reserve request.requestId (.instantiate request.token) with
    | (reserved, .error error) => (reserved, .error error)
    | (reserved, .ok ()) => (reserved.put request.token ⟨request.plugin, .instantiating, 0, none⟩).accept

def command (session : SessionValidator) : Message → Transition
  | .scan request => session.reserve request.requestId (.scan request.candidatePath)
  | .instantiate request => session.instantiate request
  | .bindSharedMemory binding => session.advance binding.token .instantiated .binding
  | .activate token => session.onInstance token canActivate "instance is not activatable" fun state =>
      (session.put token { state with phase := .activating }).accept
  | .setParameters request => session.onInstance request.token canTakeParameters "instance is not parameter-ready" fun _ =>
      session.reserve request.requestId (.parameters request.token)
  | .process token processSequence _ _ => session.onInstance token (· = .active) "instance lifecycle mismatch" fun state =>
      if state.pendingProcess = none ∧ processSequence = state.nextProcess then
        (session.put token { state with pendingProcess := some processSequence }).accept
      else session.reject "invalid process sequence"
  | .saveState request => session.onInstance request.token canTakeParameters "instance cannot save state" fun _ =>
      session.reserve request.requestId (.state request.token)
  | .deactivate token => session.onInstance token (· = .active) "instance lifecycle mismatch" fun state =>
      if state.pendingProcess = none then (session.put token { state with phase := .deactivating }).accept
      else session.reject "process is still pending"
  | .destroy token => session.onInstance token canDestroy "instance is not destroyable" fun state =>
      (session.put token { state with phase := .destroying }).accept
  | _ => session.reject "invalid controller transition"

def controllerTransition (session : SessionValidator) (message : Message) : Transition :=
  match message, session.handshake with
  | .hello, .fresh => { session with handshake := .waiting }.accept
  | .shutdown, .ready =>
    if session.pending.isEmpty && session.instances.isEmpty then { session with handshake := .closed }.accept
    else session.command .shutdown
  | message, .ready => session.command message
  | _, _ => session.reject "handshake is incomplete"

def answer (session : SessionValidator) (id : U64) (next : SessionValidator → Pending → Transition) : Transition :=
  match session.take id with
  | (_, none) => session.reject "unknown request ID"
  | (taken, some request) => next taken request

/-- An unrecoverable failure takes its instance with it. -/
def forget (session : SessionValidator) (failure : RuntimeFailureDto) : Transition :=
  match failure.token with
  | some token => if failure.recoverable then session.accept else (session.drop token).accept
  | none => session.accept

def failed (session : SessionValidator) (failure : RuntimeFailureDto) : Transition :=
  match failure.requestId with
  | none => session.forget failure
  | some id => session.answer id fun taken request =>
      match request with
      | .instantiate token => (taken.drop token).forget failure
      | _ => taken.forget failure

def response (session : SessionValidator) : Message → Transition
  | .scanReady requestId record => session.answer requestId fun taken request =>
      match request with
      | .scan path => if path = record.canonicalPath then taken.accept else taken.reject "scan path mismatch"
      | _ => taken.reject "scan response mismatch"
  | .scanFailed requestId _ => session.answer requestId fun taken request =>
      match request with
      | .scan _ => taken.accept
      | _ => taken.reject "scan response mismatch"
  | .instantiated requestId token => session.answer requestId fun taken request =>
      match request with
      | .instantiate expected =>
        if expected = token then taken.advance token .instantiating .instantiated else taken.reject "instance token mismatch"
      | _ => taken.reject "instantiate response mismatch"
  | .bound token => session.advance token .binding .bound
  | .activated token => session.advance token .activating .active
  | .parametersSet requestId token => session.answer requestId fun taken request =>
      match request with
      | .parameters expected => if expected = token then taken.accept else taken.reject "instance token mismatch"
      | _ => taken.reject "parameter response mismatch"
  | .processed token processSequence => session.onInstance token (· = .active) "instance lifecycle mismatch" fun state =>
      if state.pendingProcess = some processSequence then
        (session.put token { state with pendingProcess := none, nextProcess := state.nextProcess + 1 }).accept
      else session.reject "process completion mismatch"
  | .stateSaved requestId artifact => session.answer requestId fun taken request =>
      match request with
      | .state token => taken.onInstance token (fun _ => true) "" fun state =>
          if state.plugin = artifact.plugin then taken.accept else taken.reject "state plugin mismatch"
      | _ => taken.reject "state response mismatch"
  | .latencyChanged token => session.onInstance token (fun _ => true) "" fun _ => session.accept
  | .tailChanged token => session.onInstance token (fun _ => true) "" fun _ => session.accept
  | .deactivated token => session.advance token .deactivating .inactive
  | .destroyed token => session.onInstance token (· = .destroying) "instance lifecycle mismatch" fun _ =>
      (session.drop token).accept
  | .error failure => session.failed failure
  | _ => session.reject "invalid worker transition"

def workerTransition (session : SessionValidator) (message : Message) : Transition :=
  match message, session.handshake with
  | .capabilities _, .waiting => { session with handshake := .ready }.accept
  | message, .ready => session.response message
  | _, _ => session.reject "unexpected handshake response"

def checkSequence (direction : String) (actual expected : U64) : Except WireError Unit :=
  ensure (actual = expected) (.sequence direction actual expected)

def admits (direction : Direction) (name : String) (expected : U64) (envelope : Envelope) : Except WireError Unit := do
  envelope.validate
  ensure (envelope.message.direction = direction) .wrongDirection
  checkSequence name envelope.sequence expected

def observeController (session : SessionValidator) (envelope : Envelope) : Transition :=
  match admits .controllerToWorker "controller" session.controllerSequence envelope with
  | .error error => (session, .error error)
  | .ok () =>
    match session.controllerTransition envelope.message with
    | (after, .error error) => (after, .error error)
    | (after, .ok ()) => { after with controllerSequence := after.controllerSequence + 1 }.accept

def observeWorker (session : SessionValidator) (envelope : Envelope) : Transition :=
  match admits .workerToController "worker" session.workerSequence envelope with
  | .error error => (session, .error error)
  | .ok () =>
    match session.workerTransition envelope.message with
    | (after, .error error) => (after, .error error)
    | (after, .ok ()) => { after with workerSequence := after.workerSequence + 1 }.accept

end SessionValidator

end Audec.PluginWire
