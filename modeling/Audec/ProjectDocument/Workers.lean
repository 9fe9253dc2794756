import Audec.ProjectDocument.Settled

/-! Workers keep the invariant: a save that is persisted in time, and a package that is read. -/

open Checked List Option Function

namespace Audec.ProjectDocument

variable {Content Workspace Batch Place : Type} [DecidableEq Workspace] [DecidableEq Batch] [DecidableEq Place]

section Persist

variable {system : System Content Workspace Batch Place} {request : SaveRequest Content Workspace Batch Place} {index : Nat}

variable {flight : SaveFlight Content Workspace Batch Place} {result : SaveResult}

theorem mem_persisted
    (inside : flight ∈ system.saves.set index ⟨request, some result⟩) : flight ∈ system.saves ∨ flight = ⟨request, some result⟩ :=
  mem_or_eq_of_mem_set inside

theorem requests_persisted (found : system.saves[index]? = some ⟨request, none⟩)
    (inside : flight ∈ system.saves.set index ⟨request, some result⟩) : ∃ other ∈ system.saves, other.request = flight.request := by
  rcases mem_persisted inside with inside | rfl
  · exact ⟨flight, inside, rfl⟩
  · exact ⟨⟨request, none⟩, mem_of_getElem? found, rfl⟩

theorem tokens_persisted (found : system.saves[index]? = some ⟨request, none⟩) (result : SaveResult) :
    ((system.saves.set index ⟨request, some result⟩).map fun flight => flight.request.token) = system.saves.map fun flight => flight.request.token := by
  obtain ⟨bound, same⟩ := List.getElem?_eq_some_iff.mp found
  have within : index < (system.saves.map fun flight => flight.request.token).length := by
    rw [length_map]
    exact bound
  have token : request.token = (system.saves.map fun flight => flight.request.token)[index] := by
    rw [getElem_map, same]
  rw [map_set]
  rw [token]
  exact set_getElem_self _

section

variable (system : System Content Workspace Batch Place)

section

variable (request : SaveRequest Content Workspace Batch Place)

theorem store_primary (stored : Bool)
    (write : JournalWrite) (files : Place) :
    (update system.packages request.files (request.store stored write (system.packages request.files)) files).primary =
      if files = request.files ∧ stored = true ∧ request.kind = .primary then some request.checkpoint else (system.packages files).primary := by
  by_cases same : files = request.files
  · subst same
    rw [update_self]
    simp [SaveRequest.store]
  · rw [update_of_ne same]
    simp [same]

theorem store_journal (stored : Bool)
    (write : JournalWrite) (files : Place) :
    (system.packages files).journal ⊆ (update system.packages request.files (request.store stored write (system.packages request.files)) files).journal := by
  by_cases same : files = request.files
  · subst same
    rw [update_self]
    exact subset_append_left _ _
  · rw [update_of_ne same]
    exact List.Subset.refl _

end

end

theorem Settled.overwrites (settled : Settled system) (found : system.saves[index]? = some ⟨request, none⟩) (primary : request.kind = .primary)
    (timely : Timely system request) (clean : ¬ system.lifecycle.isDirty system.session) (named : system.lifecycle.manifestPath = some ⟨request.files, none⟩) :
    request.checkpoint = ⟨system.session.content, system.session.revision, system.lifecycle.workspace⟩ := by
  have inside := mem_of_getElem? found
  have captured := settled.captured _ inside
  have own := timely.own named
  obtain ⟨_, _, saved, workspace⟩ := Lifecycle.not_dirty.mp clean
  have ahead := settled.ahead _ inside own named (timely.inOrder (.inl named))
  have bound := captured.revision own
  have limit := captured.workspaceRevision own
  dsimp only at ahead bound limit
  have revision : request.revision = system.session.revision := by omega
  have counter : request.workspaceRevision = system.lifecycle.workspaceRevision := by omega
  have content := captured.content own revision
  have kept := captured.workspace own counter
  have plain := captured.plain primary
  dsimp only at content kept plain
  unfold SaveRequest.checkpoint
  rw [plain, content, revision, kept]

theorem settled_persist (settled : Settled system) {stored : Bool} (write : JournalWrite)
    (timely : ∀ request, system.saves[index]? = some ⟨request, none⟩ → stored = true → request.kind = .primary → Timely system request) :
    Settled (system.step (.persist index stored write)) := by
  show Settled (system.persist index stored write)
  unfold System.persist
  split
  · rename_i request found
    have inside := mem_of_getElem? found
    have captured := settled.captured _ inside
    exact { settled with
      captured := by
        intro flight there
        obtain ⟨other, held, same⟩ := requests_persisted found there
        rw [← same]
        exact settled.captured other held
      tokens := by
        rw [tokens_persisted found]
        exact settled.tokens
      ordered := by
        intro flight there other also
        obtain ⟨first, held, same⟩ := requests_persisted found there
        obtain ⟨second, kept, again⟩ := requests_persisted found also
        rw [← same, ← again]
        exact settled.ordered first held second kept
      ahead := by
        intro flight there
        obtain ⟨first, held, same⟩ := requests_persisted found there
        rw [← same]
        intro own named late
        apply settled.ahead first held own named
        -- in the package that is open, a timely save moves the order of writes forward
        show system.written first.request.files < first.request.token
        have after : (if stored = true ∧ request.kind = .primary then update system.written request.files request.token else system.written)
            first.request.files < first.request.token := late
        split at after
        · rename_i wrote
          by_cases place : first.request.files = request.files
          · rw [place] at named after ⊢
            rw [update_self] at after
            exact lt_trans ((timely request found wrote.1 wrote.2).inOrder (.inl named)) after
          · rw [update_of_ne place] at after
            exact after
        · exact after
      stored := by
        intro flight there result done kept primary current
        rcases mem_persisted there with there | rfl
        · have before := settled.stored flight there result done kept primary current
          have apart : ¬ (flight.request.files = request.files ∧ stored = true ∧ request.kind = .primary) := by
            intro ⟨same, wrote, first⟩
            -- a save that is not the latest one is not timely after it
            have order := (timely request found wrote first).inOrder (.inr ⟨flight, there, same, current, result, done, kept⟩)
            have limit := captured.latest first _ current
            have bound := before.1
            rw [same] at bound
            dsimp only at limit
            omega
          constructor
          · show flight.request.token ≤ (if stored = true ∧ request.kind = .primary then update system.written request.files request.token else system.written) flight.request.files
            split
            · rename_i wrote
              rw [update_of_ne (fun same => apart ⟨same, wrote⟩)]
              exact before.1
            · exact before.1
          · show (update system.packages request.files (request.store stored write (system.packages request.files)) flight.request.files).primary = _
            rw [store_primary, if_neg apart]
            exact before.2
        · cases done
          have wrote : stored = true ∧ request.kind = .primary := ⟨kept, primary⟩
          constructor
          · show request.token ≤ (if stored = true ∧ request.kind = .primary then update system.written request.files request.token else system.written) request.files
            rw [if_pos wrote, update_self]
          · show (update system.packages request.files (request.store stored write (system.packages request.files)) request.files).primary = _
            rw [store_primary, if_pos ⟨rfl, wrote⟩]
      durable := by
        intro flight there result done persisted delta kept
        rcases mem_persisted there with there | rfl
        · exact List.Subset.trans (settled.durable flight there result done persisted delta kept) (store_journal system request stored write _)
        · cases done
          show delta.records ⊆ (update system.packages request.files (request.store stored write (system.packages request.files)) request.files).journal
          rw [update_self]
          have state : request.journalState stored write = .persisted := persisted
          have same : request.journalDelta = some delta := kept
          simp [SaveRequest.store, state, same]
      loaded := by
        intro flight there primary pending document held
        show (update system.packages request.files (request.store stored write (system.packages request.files)) flight.files).primary = _
        rw [store_primary, if_neg]
        · exact settled.loaded flight there primary pending document held
        · intro ⟨same, wrote, first⟩
          have unread := (timely request found wrote first).unread flight there same primary pending
          rw [held] at unread
          cases unread
      clean := by
        intro clean manifest named
        show (update system.packages request.files (request.store stored write (system.packages request.files)) manifest.package).primary = _
        rw [store_primary]
        split
        · rename_i wrote
          have recovery := (Lifecycle.not_dirty.mp clean).1
          have plain : manifest.candidate = none := by
            by_contra candidate
            exact recovery ((settled.manifest manifest named).2 candidate)
          have place : manifest = ⟨request.files, none⟩ := by
            cases manifest
            simp_all
          rw [place] at named
          rw [settled.overwrites found wrote.2.2 (timely request found wrote.2.1 wrote.2.2) clean named]
        · exact settled.clean clean manifest named }
  · exact settled
  · exact settled

end Persist

section Load

variable {system : System Content Workspace Batch Place}

theorem settled_load (settled : Settled system) (index : Nat) (readable : Bool) (anchor : Option Nat) (records : List (Record Batch × Option Content)) :
    Settled (system.step (.load index readable anchor records)) := by
  show Settled (system.load index readable anchor records)
  unfold System.load
  split
  · rename_i token files origin found
    have inside := mem_of_getElem? found
    exact { settled with
      opens := by
        intro flight there
        rcases mem_or_eq_of_mem_set there with there | rfl
        · exact settled.opens flight there
        · have held := settled.opens _ inside
          exact held
      loaded := by
        intro flight there primary pending document held
        rcases mem_or_eq_of_mem_set there with there | rfl
        · exact settled.loaded flight there primary pending document held
        · have origin : origin = .primary := primary
          subst origin
          have read : (if readable = true then ((system.packages files).primary.map fun opened => (⟨opened, anchor, records⟩ : LoadedDocument Content Workspace Batch))
              else none) = some document := some.inj held
          split at read
          · obtain ⟨opened, kept, same⟩ := map_eq_some_iff.mp read
            rw [← same]
            exact kept
          · cases read }
  · exact settled
  · exact settled

end Load
end Audec.ProjectDocument
