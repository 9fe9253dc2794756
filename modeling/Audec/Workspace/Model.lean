import Audec.Lib.Machine
import Audec.Workspace.Layout

/-! The workspace document: views, where they are placed, and the operations that move them. -/

open Machine Checked Entries
open Std (ExtTreeMap ExtTreeSet)

namespace Audec.Workspace

abbrev WorkspaceWindowId := U64

abbrev LinkGroupId := U64

abbrev U16 := Fin 0x10000

def workspaceDocumentVersion : U32 := 2

def firstDynamic : U64 := 7

def unlinked : LinkGroupId := 0

inductive PatternEditorMode where
  | pianoRoll | steps

inductive AnalysisLensKind where
  | waveform | spectrum | waterfall | rhythm | components | separation | loom | coverage | comparison | airQuery

inductive WorkspaceItemKind where
  | overview | arrangement | browser | inspector
  | patternEditor (mode : PatternEditorMode)
  | automationEditor | mixer
  | analysisLens (lens : AnalysisLensKind)
  | render
  | extension (namespace' name : String)

inductive EditorTarget where
  | project | arrangement | assets | inspector
  | patternDefinition (id : U64)
  | automationLane (id : U64)
  | mixer (busId : Option U64)
  | analysis (sourceId : Option U64)
  | explanation (proposalId : U64)
  | render (comparisonId : Option U64)
  | extension (namespace' key : String)

inductive CloseBehavior where
  | pinned | hide | removeDescriptor
  deriving DecidableEq

def WorkspaceItemKind.closeBehavior : WorkspaceItemKind → CloseBehavior
  | .overview => .pinned
  | .browser | .inspector | .arrangement | .patternEditor _ | .automationEditor | .mixer => .hide
  | .analysisLens _ | .render | .extension _ _ => .removeDescriptor

def WorkspaceItemKind.canFloat : WorkspaceItemKind → Bool
  | .overview => false
  | _ => true

structure ViewLinkMembership where
  group : LinkGroupId
  facets : U16

structure LinkGroupDescriptor where
  label : Option String

structure FrameViewport where
  start : I64
  stop : I64

structure BeatViewport where
  startTick : I64
  endTick : I64

inductive EditorViewState (V : Type) where
  | overview (viewport : FrameViewport) (follow : Bool)
  | arrangement (viewport : FrameViewport) (follow : Bool) (headerWidth : Option Float32)
  | browser (search : String) (selectedAssetId : Option U64)
  | inspector
  | pattern (viewport : BeatViewport) (verticalOrigin : Option I32)
  | automation (viewport : BeatViewport)
  | mixer
  | analysis (viewport : FrameViewport) (follow : Bool) (minFrequencyHz maxFrequencyHz : Option Float32) (recipeFingerprint : Option String)
  | render
  | extension (data : V)

structure WorkspaceViewDescriptor (V : Type) where
  id : WorkspaceViewId
  kind : WorkspaceItemKind
  target : EditorTarget
  titleOverride : Option String
  links : ViewLinkMembership
  state : EditorViewState V

inductive WindowMode where
  | windowed | maximized | fullscreen

structure WindowPlacement where
  mode : WindowMode
  x : Float32
  y : Float32
  width : Float32
  height : Float32

structure FloatingWindowDescriptor (V : Type) where
  id : WorkspaceWindowId
  placement : Option WindowPlacement
  layout : DockLayout V

structure WorkspaceIdAllocators where
  nextView : U64
  nextWindow : U64
  nextLinkGroup : U64

structure WorkspaceDocument (V : Type) where
  version : U32
  allocators : WorkspaceIdAllocators
  views : ExtTreeMap WorkspaceViewId (WorkspaceViewDescriptor V)
  mainLayout : DockLayout V
  mainWindow : Option WindowPlacement
  floatingWindows : ExtTreeMap WorkspaceWindowId (FloatingWindowDescriptor V)
  linkGroups : ExtTreeMap LinkGroupId LinkGroupDescriptor

inductive WorkspaceDocumentError where
  | unsupportedVersion (version : U32)
  | zeroViewId
  | emptyTitle (view : WorkspaceViewId)
  | descriptorMismatch (view : WorkspaceViewId)
  | unlinkedFacets (view : WorkspaceViewId)
  | invalidViewState (reason : String)
  | unknownView (view : WorkspaceViewId)
  | duplicatePlacement (view : WorkspaceViewId)
  | duplicatePane (pane : DockPaneId)
  | invalidLayout (reason : String)
  | invalidWindowPlacement
  | windowMapKeyMismatch (key id : WorkspaceWindowId)
  | viewMapKeyMismatch (key id : WorkspaceViewId)
  | unknownWindow (window : WorkspaceWindowId)
  | unknownLinkGroup (group : LinkGroupId)
  | reservedLinkGroup
  | pinnedViewNotDocked (view : WorkspaceViewId)
  | allocatorBehindExistingIdentity | windowIdExhausted
  | viewCannotFloat (view : WorkspaceViewId)
  | cannotEmptyMainWorkspace

inductive ViewLocation where
  | docked
  | floating (window : WorkspaceWindowId)
  | hidden
  deriving DecidableEq

def FrameViewport.validate (viewport : FrameViewport) : Except WorkspaceDocumentError Unit :=
  ensure (viewport.start < viewport.stop) (.invalidViewState "frame viewport must be non-empty")

def BeatViewport.validate (viewport : BeatViewport) : Except WorkspaceDocumentError Unit :=
  ensure (viewport.startTick < viewport.endTick) (.invalidViewState "beat viewport must be non-empty")

def checkFloat (value : Option Float32) (passes : Float32 → Bool) (reason : String) : Except WorkspaceDocumentError Unit :=
  match value with
  | none => .ok ()
  | some value => ensure (value.isFinite = true ∧ passes value = true) (.invalidViewState reason)

def EditorViewState.validate {V : Type} : EditorViewState V → Except WorkspaceDocumentError Unit
  | .overview viewport _ => viewport.validate
  | .arrangement viewport _ headerWidth => do
    viewport.validate
    checkFloat headerWidth (fun width => 0 < width) "arrangement header width must be finite and positive"
  | .analysis viewport _ minFrequencyHz maxFrequencyHz _ => do
    viewport.validate
    checkFloat minFrequencyHz (fun value => 0 ≤ value) "analysis minimum frequency must be finite and non-negative"
    checkFloat maxFrequencyHz (fun value => 0 < value) "analysis maximum frequency must be finite and positive"
    match minFrequencyHz, maxFrequencyHz with
    | some minimum, some maximum => ensure (¬ maximum ≤ minimum) (.invalidViewState "analysis frequency range must be ordered")
    | _, _ => .ok ()
  | .pattern viewport _ | .automation viewport => viewport.validate
  | .browser _ _ | .inspector | .mixer | .render | .extension _ => .ok ()

def kindAcceptsTarget : WorkspaceItemKind → EditorTarget → Bool
  | .overview, .project | .arrangement, .arrangement | .browser, .assets | .inspector, .inspector => true
  | .patternEditor _, .patternDefinition _ | .automationEditor, .automationLane _ | .mixer, .mixer _ => true
  | .analysisLens _, .analysis _ | .analysisLens _, .explanation _ => true
  | .analysisLens .coverage, .render (some _) | .analysisLens .comparison, .render (some _) => true
  | .render, .render _ | .extension _ _, .extension _ _ => true
  | _, _ => false

def kindAcceptsState {V : Type} : WorkspaceItemKind → EditorViewState V → Bool
  | .overview, .overview _ _ | .arrangement, .arrangement _ _ _ | .browser, .browser _ _ | .inspector, .inspector => true
  | .patternEditor _, .pattern _ _ | .automationEditor, .automation _ | .mixer, .mixer => true
  | .analysisLens _, .analysis _ _ _ _ _ | .render, .render | .extension _ _, .extension _ => true
  | _, _ => false

def WorkspaceViewDescriptor.validate {V : Type} (descriptor : WorkspaceViewDescriptor V) : Except WorkspaceDocumentError Unit := do
  ensure (descriptor.id ≠ 0) .zeroViewId
  ensure (descriptor.titleOverride.any Unicode.isBlank = false) (.emptyTitle descriptor.id)
  ensure (kindAcceptsTarget descriptor.kind descriptor.target = true ∧ kindAcceptsState descriptor.kind descriptor.state = true)
    (.descriptorMismatch descriptor.id)
  ensure (¬(descriptor.links.group = unlinked ∧ descriptor.links.facets ≠ 0)) (.unlinkedFacets descriptor.id)
  descriptor.state.validate

def WindowPlacement.validate (placement : WindowPlacement) : Except WorkspaceDocumentError Unit :=
  ensure ([placement.x, placement.y, placement.width, placement.height].all Float32.isFinite = true ∧
    ¬ placement.width ≤ 0 ∧ ¬ placement.height ≤ 0) .invalidWindowPlacement

def checkPlacement (placement : Option WindowPlacement) : Except WorkspaceDocumentError Unit :=
  placement.elim (.ok ()) WindowPlacement.validate

structure Seen where
  views : ExtTreeSet WorkspaceViewId
  panes : ExtTreeSet DockPaneId

section Placing

variable {V : Type}

def placeView (knownViews : ExtTreeMap WorkspaceViewId (WorkspaceViewDescriptor V)) (seen : Seen) (view : WorkspaceViewId) :
    Except WorkspaceDocumentError Seen := do
  ensure (view ∈ knownViews) (.unknownView view)
  ensure (view ∉ seen.views) (.duplicatePlacement view)
  return { seen with views := seen.views.insert view }

def DockLayout.validateInto (knownViews : ExtTreeMap WorkspaceViewId (WorkspaceViewDescriptor V)) (seen : Seen) :
    DockLayout V → Except WorkspaceDocumentError Seen
  | .pane leaf => do
    ensure (leaf.paneId ≠ 0 ∧ leaf.paneId ∉ seen.panes) (.duplicatePane leaf.paneId)
    ensure (leaf.items ≠ [] ∧ leaf.active < leaf.items.length) (.invalidLayout "a pane must contain an active item")
    leaf.items.foldlM (placeView knownViews) { seen with panes := seen.panes.insert leaf.paneId }
  | .split _ ratio first second _ => do
    ensure (ratio.isFinite = true ∧ ¬ ratio ≤ 0 ∧ ¬ 1 ≤ ratio) (.invalidLayout "split ratio must be finite and inside (0, 1)")
    let seen ← first.validateInto knownViews seen
    second.validateInto knownViews seen

end Placing

def floatingPaneId (window : WorkspaceWindowId) : DockPaneId := 0xffffffffffffffff - (window - 1)

/-- The largest of some keys, or zero. -/
def maximumKey (keys : List U64) : U64 := keys.foldl max 0

namespace WorkspaceDocument

variable {V : Type}

def validateView (document : WorkspaceDocument V) (id : WorkspaceViewId) (descriptor : WorkspaceViewDescriptor V) :
    Except WorkspaceDocumentError Unit := do
  ensure (id = descriptor.id) (.viewMapKeyMismatch id descriptor.id)
  descriptor.validate
  ensure (descriptor.links.group = unlinked ∨ descriptor.links.group ∈ document.linkGroups) (.unknownLinkGroup descriptor.links.group)

def validateWindow (id : WorkspaceWindowId) (window : FloatingWindowDescriptor V) : Except WorkspaceDocumentError Unit := do
  ensure (id = window.id ∧ id ≠ 0) (.windowMapKeyMismatch id window.id)
  checkPlacement window.placement

section

variable (document : WorkspaceDocument V)

def validateAllocators : Except WorkspaceDocumentError Unit :=
  ensure (¬(document.allocators.nextView ≤ maximumKey document.views.keys ∨ document.allocators.nextView < firstDynamic ∨
    document.allocators.nextWindow ≤ maximumKey document.floatingWindows.keys ∨ document.allocators.nextWindow = 0 ∨
    document.allocators.nextLinkGroup ≤ maximumKey document.linkGroups.keys ∨ document.allocators.nextLinkGroup = 0))
    .allocatorBehindExistingIdentity

def mainLayoutLocation (view : WorkspaceViewId) : ViewLocation :=
  if document.mainLayout.layoutContains view then .docked
  else (document.floatingWindows.toList.findSome? fun entry =>
    if entry.2.layout.layoutContains view then some (.floating entry.1) else none).getD .hidden

def location (view : WorkspaceViewId) : Except WorkspaceDocumentError ViewLocation := do
  ensure (view ∈ document.views) (.unknownView view)
  return document.mainLayoutLocation view

def validatePlacements : Except WorkspaceDocumentError Seen := do
  let seen ← document.mainLayout.validateInto document.views ⟨∅, ∅⟩
  (values document.floatingWindows).foldlM (fun seen window => window.layout.validateInto document.views seen) seen

def validate : Except WorkspaceDocumentError Unit := do
  ensure (document.version = workspaceDocumentVersion) (.unsupportedVersion document.version)
  checkPlacement document.mainWindow
  document.views.toList.forM fun entry => document.validateView entry.1 entry.2
  ensure (unlinked ∉ document.linkGroups) .reservedLinkGroup
  document.floatingWindows.toList.forM fun entry => validateWindow entry.1 entry.2
  let _ ← document.validatePlacements
  document.views.toList.forM fun entry =>
    ensure (entry.2.kind.closeBehavior ≠ .pinned ∨ document.mainLayoutLocation entry.1 = .docked) (.pinnedViewNotDocked entry.1)
  document.validateAllocators

section

variable (view : WorkspaceViewId)

section

variable (placement : Option WindowPlacement)

def openWindow (nextWindow : U64) :
    WorkspaceDocument V :=
  { document with
    allocators := { document.allocators with nextWindow }
    floatingWindows := document.floatingWindows.insert document.allocators.nextWindow
      ⟨document.allocators.nextWindow, placement, .pane ⟨floatingPaneId document.allocators.nextWindow, [view], 0, ∅⟩⟩ }

def checkFloats :
    Except WorkspaceDocumentError Unit := do
  match document.views[view]? with
  | none => .error (.unknownView view)
  | some descriptor => ensure (descriptor.kind.canFloat = true) (.viewCannotFloat view)
  checkPlacement placement

def floatView :
    Except WorkspaceDocumentError (WorkspaceDocument V × WorkspaceWindowId) := do
  document.checkFloats view placement
  match ← document.location view with
  | .floating window => return (document, window)
  | .docked =>
    match (document.mainLayout.without view).1 with
    | none => .error .cannotEmptyMainWorkspace
    | some mainLayout =>
      match checkedSucc document.allocators.nextWindow with
      | none => .error .windowIdExhausted
      | some nextWindow => return (openWindow { document with mainLayout } view placement nextWindow, document.allocators.nextWindow)
  | .hidden =>
    match checkedSucc document.allocators.nextWindow with
    | none => .error .windowIdExhausted
    | some nextWindow => return (document.openWindow view placement nextWindow, document.allocators.nextWindow)

end

end

end

def removePlacement (document : WorkspaceDocument V) (view : WorkspaceViewId) : Except WorkspaceDocumentError (WorkspaceDocument V) := do
  match ← document.location view with
  | .hidden => return document
  | .docked =>
    match (document.mainLayout.without view).1 with
    | none => .error .cannotEmptyMainWorkspace
    | some mainLayout => return { document with mainLayout }
  | .floating window =>
    match document.floatingWindows[window]? with
    | none => .error (.unknownWindow window)
    | some floating =>
      match (floating.layout.without view).1 with
      | some layout => return { document with floatingWindows := document.floatingWindows.insert window { floating with layout } }
      | none => return { document with floatingWindows := document.floatingWindows.erase window }

def tearOffView (document : WorkspaceDocument V) (view : WorkspaceViewId) (placement : Option WindowPlacement) :
    Except WorkspaceDocumentError (WorkspaceDocument V × WorkspaceWindowId) := do
  document.checkFloats view placement
  let next ← document.removePlacement view
  match checkedSucc next.allocators.nextWindow with
  | none => .error .windowIdExhausted
  | some nextWindow => do
    (next.openWindow view placement nextWindow).validate
    return (next.openWindow view placement nextWindow, next.allocators.nextWindow)

def dockView (document : WorkspaceDocument V) (view : WorkspaceViewId) : Except WorkspaceDocumentError (WorkspaceDocument V) := do
  match ← document.location view with
  | .docked => return document
  | .hidden => return { document with mainLayout := document.mainLayout.addToPrimary view }
  | .floating _ => do
    let next ← document.removePlacement view
    { next with mainLayout := next.mainLayout.addToPrimary view }.validate
    return { next with mainLayout := next.mainLayout.addToPrimary view }

end WorkspaceDocument

end Audec.Workspace
