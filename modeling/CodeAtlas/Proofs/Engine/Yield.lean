import CodeAtlas.Proofs.Engine.Schedules

/-!
# What a run stages and queues

Whatever the parser says and whoever calls, a run stages at most one entry for each of its candidates,
under the identifier of the candidate, and puts documents of candidates alone. So all changes that it
queues are known once it is known which documents it puts.
-/

namespace CodeAtlas

namespace Run

variable {r : Run} {caller : Caller} {s s' : RunState} {c : Candidate}
  {candidates more : List Candidate} {new new' : List FileEntry} {puts puts' : List Document}
  {live : Bool} {updated : Project}

/-- Entries and documents that a run has for its candidates. -/
structure Yields (r : Run) (candidates : List Candidate) (new : List FileEntry)
    (puts : List Document) : Prop where
  ids : (new.map (·.file.id)).Sublist (candidates.map r.idOf)
  entries : ∀ f ∈ new, f.file.projectId = r.project.id
  documents : ∀ d ∈ puts, d.file.projectId = r.project.id ∧ ∃ c ∈ candidates, d.file.id = r.idOf c

theorem yields_nil (r : Run) (candidates : List Candidate) : r.Yields candidates [] [] :=
  ⟨List.nil_sublist _, by simp, by simp⟩

theorem Yields.append (h : r.Yields candidates new puts) (h' : r.Yields more new' puts') :
    r.Yields (candidates ++ more) (new ++ new') (puts ++ puts') where
  ids := by
    rw [List.map_append, List.map_append]
    exact h.ids.append h'.ids
  entries f hf := (List.mem_append.mp hf).elim (h.entries f) (h'.entries f)
  documents d hd := by
    rcases List.mem_append.mp hd with hd | hd
    · obtain ⟨hown, c, hc, hid⟩ := h.documents d hd
      exact ⟨hown, c, List.mem_append_left _ hc, hid⟩
    · obtain ⟨hown, c, hc, hid⟩ := h'.documents d hd
      exact ⟨hown, c, List.mem_append_right _ hc, hid⟩

theorem Yields.exists_candidate (h : r.Yields candidates new puts) {f : FileEntry} (hf : f ∈ new) :
    ∃ c ∈ candidates, f.file.id = r.idOf c := by
  obtain ⟨c, hc, hid⟩ := List.mem_map.mp (h.ids.subset (List.mem_map_of_mem hf))
  exact ⟨c, hc, hid.symm⟩

theorem Takes.yields (h : r.Takes live s c s')
    (hprior : ∀ f ∈ r.prior, f.file.projectId = r.project.id) :
    ∃ new puts, s'.staged = s.staged ++ new ∧ s'.index = s.index.enqueue (puts.map .put) ∧
      r.Yields [c] new puts := by
  have hknown {f : FileEntry} (hfound : r.prior? (r.idOf c) = some f) :
      f.file.id = r.idOf c ∧ f.file.projectId = r.project.id :=
    ⟨by simpa using List.find?_some hfound, hprior f (List.mem_of_find?_eq_some hfound)⟩
  have hone {f : FileEntry} (hid : f.file.id = r.idOf c) (hown : f.file.projectId = r.project.id) :
      r.Yields [c] [f] [] := ⟨by simp [hid], by simpa using hown, by simp⟩
  have hfail (s : RunState) (message : String) : ∃ new puts,
      (r.fail s (r.idOf c) c message).staged = s.staged ++ new ∧
        (r.fail s (r.idOf c) c message).index = s.index.enqueue (puts.map .put) ∧
          r.Yields [c] new puts := by
    unfold fail
    dsimp only
    split
    · exact ⟨[], [], by simp, by simp, r.yields_nil [c]⟩
    · cases hfound : r.prior? (r.idOf c) with
      | none => exact ⟨[], [], by simp, by simp, r.yields_nil [c]⟩
      | some f =>
          obtain ⟨hid, hown⟩ := hknown hfound
          exact ⟨[f], [], rfl, by simp, hone hid hown⟩
  cases h with
  | @refused message _ => exact hfail s message
  | skipped => exact ⟨[], [], by simp, by simp, r.yields_nil [c]⟩
  | @kept f hfits hsame =>
      obtain ⟨hid, hown⟩ := hknown (prior?_of_known? hsame).1
      exact ⟨[f], [], rfl, by simp, hone hid hown⟩
  | @failed parser e _ _ => exact hfail { s with parser } e.message
  | @reread f result cached parser hfits hsame hparse =>
      obtain ⟨hid, hown⟩ := hknown (prior?_of_known? hsame).1
      exact ⟨[entryOf f.file result.found], [], rfl, by simp, hone hid hown⟩
  | @put result cached parser hfits hsame hparse =>
      exact ⟨[entryOf (r.documentOf c result.found).file result.found], [r.documentOf c result.found],
        rfl, rfl, by simp [entryOf, documentOf_id], by simp [entryOf, documentOf_projectId],
        by simp [documentOf_id, documentOf_projectId]⟩

theorem takeAll_yields (h : r.takeAll caller s candidates = (s', .ok ()))
    (hprior : ∀ f ∈ r.prior, f.file.projectId = r.project.id) :
    ∃ new puts, s'.staged = s.staged ++ new ∧ s'.index = s.index.enqueue (puts.map .put) ∧
      r.Yields candidates new puts := by
  induction candidates generalizing s with
  | nil =>
      unfold takeAll at h
      obtain ⟨rfl, -⟩ := Prod.mk.inj h
      exact ⟨[], [], by simp, by simp, r.yields_nil []⟩
  | cons c rest ih =>
      unfold takeAll at h
      split at h
      · rename_i s₁ htake
        obtain ⟨new, puts, hstaged, hindex, hyields⟩ := (takes_of_take htake).2.yields hprior
        obtain ⟨new', puts', hstaged', hindex', hyields'⟩ := ih h
        refine ⟨new ++ new', puts ++ puts', ?_, ?_, hyields.append hyields'⟩
        · rw [hstaged', hstaged, List.append_assoc]
        · rw [hindex', hindex, Index.enqueue_enqueue, List.map_append]
      · rename_i hfailed
        exact absurd h (hfailed s')

theorem fill_yields {start : Index} {parser : Parser} {skipped : Nat}
    (h : r.fill caller ⟨start, parser, [], 0, 0, skipped, 0, []⟩ candidates updated = (s, .ok ()))
    (hqueue : start.queue = some []) (hprior : ∀ f ∈ r.prior, f.file.projectId = r.project.id) :
    ∃ puts, s.index = { start with queue := some (r.queued puts (r.erased s) updated) } ∧
      r.Yields candidates s.staged puts := by
  obtain ⟨s₁, s₂, hclear, htake, rfl⟩ := fill_eq_ok h
  obtain ⟨new, puts, hstaged, hindex, hyields⟩ := takeAll_yields htake hprior
  have hfirst : s₁.staged = [] ∧ s₁.index = start.enqueue
      (if r.isFresh then [.deleteProjectDocuments r.project.id] else []) := by
    rw [hclear]
    by_cases hfresh : r.isFresh = true <;> simp [hfresh]
  rw [hfirst.1, List.nil_append] at hstaged
  refine ⟨puts, ?_, hstaged ▸ hyields⟩
  change s₂.index.enqueue ((r.erased s₂).map .deleteFile ++ [.saveProject updated]) =
    { start with queue := some (r.queued puts (r.erased s₂) updated) }
  rw [hindex, hfirst.2, Index.enqueue_enqueue, Index.enqueue_enqueue]
  simp only [Index.enqueue, hqueue, Option.map_some, List.nil_append, queued, List.append_assoc]

theorem onProjects_queued (r : Run) (puts : List Document) (erased : List String) (updated : Project)
    (rows : List ProjectRow) : (r.queued puts erased updated).foldl WriteOp.onProjects rows =
      rows.map (ProjectRow.updated updated) := by
  have hclear : (if r.isFresh then [WriteOp.deleteProjectDocuments r.project.id] else []).foldl
      WriteOp.onProjects rows = rows := by
    split <;> rfl
  unfold queued
  rw [List.foldl_append, List.foldl_append, List.foldl_append, hclear,
    WriteOp.foldl_onProjects_put, onProjects_deleteFile]
  rfl

end Run

end CodeAtlas
