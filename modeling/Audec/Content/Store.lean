import Audec.Content.ProductKey

/-! Pins and collections of a content store that several processes share, one file operation at a time. -/

open Machine

namespace Audec.Content

structure ObjectPath where
  schemaKey : Vector UInt8 32
  sha256 : Vector UInt8 32
  deriving DecidableEq

def schemaStorageKey (schema : SchemaTag) : Vector UInt8 32 :=
  let hasher := Sha256.new.update schema.encodeCanonical
  ⟨hasher.finalize.toArray, hasher.length_finalize⟩

def objectPath (digest : Digest) : ObjectPath := ⟨schemaStorageKey digest.schema, digest.sha256⟩

structure StoredObject where
  object : ObjectRef
  physicalBytes : U64
  modifiedUnixMs : U64
  deriving DecidableEq

structure PinRecord where
  object : ObjectRef
  expiresUnixMs : Option U64

structure PinPath where
  owner : String
  sha256 : Vector UInt8 32
  sequence : U64
  deriving DecidableEq

structure ObjectPin where
  owner : String
  sequence : U64
  object : ObjectRef
  expires : Option U64
  deriving DecidableEq

namespace ObjectPin

def path (pin : ObjectPin) : PinPath := ⟨pin.owner, pin.object.digest.sha256, pin.sequence⟩

def record (pin : ObjectPin) : PinRecord := ⟨pin.object, pin.expires⟩

end ObjectPin

def activeAt (now : Nat) (expires : Option U64) : Bool := expires.all fun expires => now < expires.val

structure GcCandidate where
  object : ObjectRef
  path : ObjectPath
  observedPhysicalBytes : U64
  observedModifiedUnixMs : U64

/-- What a caller takes the gate for. -/
inductive Task where
  | createPin (pin : ObjectPin)
  | executeGc (removals : List GcCandidate) (now : Nat)

/-- The next file operation inside the gate. -/
inductive Work where
  | verify (pin : ObjectPin)
  | createOwnerDirectory (pin : ObjectPin)
  | createRecord (pin : ObjectPin)
  | writeRecord (pin : ObjectPin)
  | syncRecord (pin : ObjectPin)
  | scanPins (removals : List GcCandidate) (now : Nat)
  | scanOwners (removals : List GcCandidate) (now : Nat) (owners : List String) (paths : List PinPath)
  | readPins (removals : List GcCandidate) (now : Nat) (paths : List PinPath) (roots : List ObjectRef)
  | inspect (removals : List GcCandidate) (roots : List ObjectRef)
  | remove (candidate : GcCandidate) (removals : List GcCandidate) (roots : List ObjectRef)

def Task.begin : Task → Work
  | .createPin pin => .verify pin
  | .executeGc removals now => .scanPins removals now

/-- Where a caller is in its call. -/
inductive Phase where
  | idle
  | dead
  | claiming (task : Task)
  | judging (task : Task)
  | reclaiming (task : Task)
  | reclaimed (task : Task)
  | inside (work : Work)
  | leaving (pin : Option ObjectPin)

abbrev Caller := Nat

/-- The gate directory. Who made it is not recorded in it. -/
structure Gate where
  modified : Nat
  holder : Caller

/-- The files of a store, and what its callers are doing. A record that is not yet written is `none`. -/
structure Store where
  now : Nat
  gate : Option Gate
  objects : ObjectPath → Option StoredObject
  owners : List String
  pins : List (PinPath × Option PinRecord)
  phase : Caller → Phase
  granted : List ObjectPin

namespace Store

def gcGateStaleAfter : Nat := 60000

def goto (store : Store) (caller : Caller) (phase : Phase) : Store := { store with phase := Function.update store.phase caller phase }

def claimed (store : Store) (caller : Caller) (task : Task) : Store :=
  { store with gate := some ⟨store.now, caller⟩ }.goto caller (.inside task.begin)

section

variable (store : Store)

def gateIsStale : Bool := store.gate.any fun gate => gcGateStaleAfter < store.now - gate.modified

def recordAt (path : PinPath) : Option (Option PinRecord) := store.pins.lookup path

/-- The files of one owner's directory. -/
def recordsOf (owner : String) : List PinPath := (store.pins.map Prod.fst).filter fun path => path.owner = owner

def holds (object : ObjectRef) : Bool := (store.objects (objectPath object.digest)).any fun stored => stored.object = object

end

def doWork (store : Store) (caller : Caller) : Work → Store
  | .verify pin => store.goto caller (if store.holds pin.object then .inside (.createOwnerDirectory pin) else .leaving none)
  | .createOwnerDirectory pin => { store with owners := store.owners.insert pin.owner }.goto caller (.inside (.createRecord pin))
  | .createRecord pin =>
    if (store.recordAt pin.path).isSome then store.goto caller (.leaving none)
    else { store with pins := (pin.path, none) :: store.pins }.goto caller (.inside (.writeRecord pin))
  | .writeRecord pin =>
    { store with pins := store.pins.map fun (file : PinPath × Option PinRecord) => if file.1 = pin.path then (pin.path, some pin.record) else file }.goto caller
      (.inside (.syncRecord pin))
  | .syncRecord pin => store.goto caller (.leaving (some pin))
  | .scanPins removals now => store.goto caller (.inside (.scanOwners removals now store.owners []))
  | .scanOwners removals now [] paths => store.goto caller (.inside (.readPins removals now paths []))
  | .scanOwners removals now (owner :: owners) paths =>
    store.goto caller (.inside (.scanOwners removals now owners (paths ++ store.recordsOf owner)))
  | .readPins removals _ [] roots => store.goto caller (.inside (.inspect removals roots))
  | .readPins removals now (path :: paths) roots =>
    match store.recordAt path with
    | some (some record) => store.goto caller
        (.inside (.readPins removals now paths (if activeAt now record.expiresUnixMs then record.object :: roots else roots)))
    | _ => store.goto caller (.leaving none)
  | .inspect [] _ => store.goto caller (.leaving none)
  | .inspect (candidate :: removals) roots =>
    if candidate.object ∈ roots then store.goto caller (.inside (.inspect removals roots))
    else match store.objects candidate.path with
      | none => store.goto caller (.inside (.inspect removals roots))
      | some actual =>
        if objectPath actual.object.digest ≠ candidate.path then store.goto caller (.leaving none)
        else if actual = ⟨candidate.object, candidate.observedPhysicalBytes, candidate.observedModifiedUnixMs⟩ then
          store.goto caller (.inside (.remove candidate removals roots))
        else store.goto caller (.inside (.inspect removals roots))
  | .remove candidate removals roots =>
    if (store.objects candidate.path).isSome then
      { store with objects := Function.update store.objects candidate.path none }.goto caller (.inside (.inspect removals roots))
    else store.goto caller (.leaving none)

/-- The caller's next file operation. -/
def advance (store : Store) (caller : Caller) : Store :=
  match store.phase caller with
  | .idle | .dead => store
  | .claiming task => if store.gate.isNone then store.claimed caller task else store.goto caller (.judging task)
  | .judging task => store.goto caller (if store.gateIsStale then .reclaiming task else .idle)
  | .reclaiming task => { store with gate := none }.goto caller (.reclaimed task)
  | .reclaimed task => if store.gate.isNone then store.claimed caller task else store.goto caller .idle
  | .inside work => store.doWork caller work
  | .leaving pin => { store with gate := none, granted := pin.toList ++ store.granted }.goto caller .idle

/-- The caller's next file operation fails. The gate's removals ignore that. -/
def fault (store : Store) (caller : Caller) : Store :=
  match store.phase caller with
  | .idle | .dead => store
  | .claiming _ | .judging _ | .reclaimed _ => store.goto caller .idle
  | .reclaiming task => store.goto caller (.reclaimed task)
  | .inside _ => store.goto caller (.leaving none)
  | .leaving pin => { store with granted := pin.toList ++ store.granted }.goto caller .idle

/-- What can happen next. A clock may be behind, and a caller may die at any time. -/
inductive Action where
  | createPin (caller : Caller) (pin : ObjectPin)
  | executeGc (caller : Caller) (removals : List GcCandidate) (delay : Nat)
  | advance (caller : Caller)
  | fault (caller : Caller)
  | die (caller : Caller)
  | release (pin : ObjectPin)
  | publish (stored : StoredObject)
  | wait (duration : Nat)

def start (store : Store) (caller : Caller) (task : Task) : Store :=
  match store.phase caller with
  | .idle => store.goto caller (.claiming task)
  | _ => store

def perform (store : Store) : Action → Store
  | .createPin caller pin => store.start caller (.createPin pin)
  | .executeGc caller removals delay => store.start caller (.executeGc removals (store.now - delay))
  | .advance caller => store.advance caller
  | .fault caller => store.fault caller
  | .die caller => store.goto caller .dead
  | .release pin =>
    if pin ∈ store.granted then
      { store with pins := store.pins.filter (fun file => file.1 ≠ pin.path), granted := store.granted.erase pin }
    else store
  | .publish stored =>
    if (store.objects (objectPath stored.object.digest)).isNone then
      { store with objects := Function.update store.objects (objectPath stored.object.digest) (some stored) }
    else store
  | .wait duration => { store with now := store.now + duration }

end Store

end Audec.Content
