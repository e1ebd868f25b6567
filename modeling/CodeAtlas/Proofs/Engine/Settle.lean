import CodeAtlas.Proofs.Engine.Staged

/-!
# What a run leaves

A run that comes to its end has queued the removal of all files that it did not stage. The documents
that its commit leaves for the project are then those of its entries, and if no file failed, those of
the candidates that fit, whatever was known of them before.
-/

namespace CodeAtlas

namespace Run

variable {S : Setting} {r : Run} {caller : Caller} {docs left docs' : List Document}
  {done candidates : List Candidate} {c : Candidate} {start : Index} {s s' : RunState}
  {failed : Nat} {staged : List FileEntry} {updated : Project}

theorem Reaches.takeAll (h : Reaches S r docs start done s left) (hbegins : Begins S r docs)
    (hsteady : S.Steady caller)
    (hmeets : ∀ c ∈ done ++ candidates, S.Meets r.project.id r.project.rootPath c)
    (hdistinct : (done ++ candidates).Pairwise fun c c' => c.relativePath ≠ c'.relativePath)
    (hdone : r.takeAll caller s candidates = (s', .ok ())) :
    ∃ left', Reaches S r docs start (done ++ candidates) s' left' := by
  induction candidates generalizing done s left with
  | nil =>
      unfold Run.takeAll at hdone
      obtain ⟨rfl, -⟩ := Prod.mk.inj hdone
      rw [List.append_nil]
      exact ⟨left, h⟩
  | cons c rest ih =>
      unfold Run.takeAll at hdone
      split at hdone
      · rename_i s₁ htake
        obtain ⟨hwaits, htakes⟩ := takes_of_take htake
        have hc := hmeets c (by simp)
        have hids : ∀ c' ∈ done, r.idOf c' ≠ r.idOf c := fun c' hc' =>
          idOf_ne hc (hmeets c' (List.mem_append_left _ hc'))
            ((List.pairwise_append.mp hdistinct).2.2 c' hc' c List.mem_cons_self)
        obtain ⟨left₁, hreaches⟩ := h.take hbegins hc hids
          (hsteady _ hc.asks hwaits) htakes
        have happend : done ++ c :: rest = (done ++ [c]) ++ rest := by simp
        rw [happend] at hmeets hdistinct ⊢
        exact ih hreaches hmeets hdistinct hdone
      · rename_i hfailed
        exact absurd hdone (hfailed s')

theorem queue_eq_ok {live : Bool} {op : WriteOp} (h : queue live s op = (s', .ok ())) :
    s' = { s with index := s.index.enqueue [op] } := by
  unfold queue at h
  split at h
  · split at h
    · rename_i index hsubmit
      obtain ⟨rfl, -⟩ := Prod.mk.inj h
      rw [Index.eq_enqueue_of_submit hsubmit]
    · simp at h
  · simp at h

theorem eraseAll_eq_ok {ids : List String} (h : eraseAll caller s ids = (s', .ok ())) :
    s' = { s with index := s.index.enqueue (ids.map .deleteFile) } := by
  induction ids generalizing s with
  | nil =>
      obtain ⟨rfl, -⟩ := Prod.mk.inj h
      simp
  | cons id rest ih =>
      unfold eraseAll at h
      split at h
      · rename_i s₁ hqueue
        rw [ih h, queue_eq_ok hqueue]
        simp
      · rename_i hfailed
        exact absurd h (hfailed s')

/-- The files that a run removes one by one; a fresh one has cleared the project before. -/
def erased (r : Run) (s : RunState) : List String := if r.isFresh then [] else r.stale s

/-- A filled queue, from the outside in: clearing, the candidates, what is stale, and the project. -/
theorem fill_eq_ok (h : r.fill caller s candidates updated = (s', .ok ())) :
    ∃ s₁ s₂, s₁ = (if r.isFresh then
        { s with index := s.index.enqueue [.deleteProjectDocuments r.project.id] } else s) ∧
      r.takeAll caller s₁ candidates = (s₂, .ok ()) ∧
      s' = { s₂ with
        index := s₂.index.enqueue
          ((r.erased s₂).map .deleteFile ++ [.saveProject updated]) } := by
  unfold fill at h
  simp only at h
  split at h
  · simp at h
  · rename_i s₁ hclear
    split at h
    · simp at h
    · rename_i s₂ htake
      split at h
      · simp at h
      · rename_i s₃ herase
        split at h
        · simp at h
        · rename_i s₄ hsave
          obtain ⟨rfl, -⟩ := Prod.mk.inj h
          refine ⟨s₁, s₂, ?_, htake, ?_⟩
          · split at hclear
            · rename_i hfresh
              rw [if_pos hfresh]
              exact queue_eq_ok hclear
            · rename_i hfresh
              rw [if_neg hfresh]
              exact (Prod.mk.inj hclear).1.symm
          · rw [queue_eq_ok hsave, eraseAll_eq_ok herase]
            simp [erased]

theorem foldl_deleteFile (now : Instant) (ids : List String) (docs : List Document) :
    (ids.map WriteOp.deleteFile).foldl (WriteOp.on now) docs =
      docs.filter fun d => !ids.contains d.file.id := by
  induction ids generalizing docs with
  | nil => simp
  | cons id rest ih =>
      rw [List.map_cons, List.foldl_cons, ih, WriteOp.on, List.filter_filter]
      refine List.filter_congr fun d _ => ?_
      rw [List.contains_cons, Bool.not_or, Bool.and_comm]
      rfl

theorem onProjects_deleteFile (ids : List String) (rows : List ProjectRow) :
    (ids.map WriteOp.deleteFile).foldl WriteOp.onProjects rows = rows := by
  induction ids with
  | nil => rfl
  | cons id rest ih => exact ih

theorem mem_stale {id : String} : id ∈ r.stale s ↔
    (∃ f ∈ r.prior, f.file.id = id) ∧ ∀ f ∈ s.staged, f.file.id ≠ id := by
  unfold stale
  rw [List.mem_mergeSort, List.mem_filter, List.mem_map]
  simp

theorem mem_erased {id : String} : id ∈ r.erased s ↔ r.isFresh = false ∧ id ∈ r.stale s := by
  unfold erased
  split
  · rename_i hfresh
    simp [hfresh]
  · rename_i hfresh
    simp [hfresh]

/-- What a run leaves when it is committed. -/
structure Settles (S : Setting) (r : Run) (docs : List Document) (candidates : List Candidate)
    (s : RunState) (docs' : List Document) : Prop where
  others : docs'.filter (·.file.projectId != r.project.id) =
    docs.filter (·.file.projectId != r.project.id)
  files : (docs'.map (·.file.id)).Nodup
  explained : ∀ d ∈ docs', d.file.projectId = r.project.id → S.Explains r.project.rootPath d
  staged : Staged r docs candidates docs' s.failed s.staged
  settled : ∀ d ∈ docs', d.file.projectId = r.project.id → ∃ f ∈ s.staged, f.file.id = d.file.id

theorem Leaves.not_stale (h : Leaves S r docs done left) (hbegins : Begins S r docs) {d : Document}
    (hd : d ∈ left) (hother : d.file.projectId ≠ r.project.id) : d.file.id ∉ r.stale s := by
  intro hstale
  obtain ⟨⟨f, hf, hid⟩, -⟩ := mem_stale.mp hstale
  obtain ⟨e, he, hown, hdocument⟩ := hbegins.prior f hf
  have hkept : d ∈ left.filter (·.file.projectId != r.project.id) :=
    List.mem_filter.mpr ⟨hd, by simpa using hother⟩
  rw [h.others] at hkept
  have hsame := List.inj_on_of_nodup_map hbegins.files (List.mem_of_mem_filter hkept) he
    (hid.symm.trans (FileEntry.id_of_document_eq hdocument))
  rw [hsame] at hother
  exact hother hown

/-- Removing what is stale settles the run. -/
theorem Reaches.settles (h : Reaches S r docs start candidates s left) (hbegins : Begins S r docs) :
    Settles S r docs candidates s
      (left.filter fun d => !(r.erased s).contains d.file.id) := by
  have hgone {d : Document} (hd : d ∈ left)
      (hmem : d.file.id ∈ (r.erased s)) :
      d.file.projectId = r.project.id ∧ ∀ f ∈ s.staged, f.file.id ≠ d.file.id := by
    obtain ⟨-, hstale⟩ := mem_erased.mp hmem
    refine ⟨?_, (mem_stale.mp hstale).2⟩
    by_contra hother
    exact h.leaves.not_stale hbegins hd hother hstale
  have hstays {d : Document} (hd : d ∈ left)
      (hnot : d.file.id ∉ (r.erased s)) :
      d ∈ left.filter fun d => !(r.erased s).contains d.file.id :=
    List.mem_filter.mpr ⟨hd, by simpa using hnot⟩
  have hleft {d : Document} (hd : d ∈ left.filter fun d =>
      !(r.erased s).contains d.file.id) :
      d ∈ left ∧ d.file.id ∉ (r.erased s) := by
    obtain ⟨hmem, hnot⟩ := List.mem_filter.mp hd
    exact ⟨hmem, by simpa using hnot⟩
  have hsettled : ∀ d ∈ left.filter (fun d =>
      !(r.erased s).contains d.file.id),
      d.file.projectId = r.project.id → ∃ f ∈ s.staged, f.file.id = d.file.id := by
    intro d hd hown
    obtain ⟨hmem, hnot⟩ := hleft hd
    obtain hstaged | ⟨hfresh, hdoc⟩ := h.staged.known d hmem hown
    · exact hstaged
    · by_contra hnone
      refine hnot (mem_erased.mpr ⟨hfresh, mem_stale.mpr ⟨hbegins.held d hdoc hown, ?_⟩⟩)
      exact fun f hf hid => hnone ⟨f, hf, hid⟩
  constructor
  · rw [List.filter_filter, ← h.leaves.others]
    refine List.filter_congr fun d hd => ?_
    by_cases hmem : d.file.id ∈ (r.erased s)
    · simp [(hgone hd hmem).1]
    · simp [hmem]
  · exact h.leaves.files.sublist (List.filter_sublist.map _)
  · exact fun d hd => h.leaves.explained d (hleft hd).1
  · refine ⟨?_, h.staged.distinct, h.staged.taken, h.staged.complete, ?_⟩
    · intro f hf
      obtain ⟨d, hd, hown, hdocument⟩ := h.staged.kept f hf
      refine ⟨d, hstays hd fun hmem => ?_, hown, hdocument⟩
      exact (hgone hd hmem).2 f hf (FileEntry.id_of_document_eq hdocument)
    · exact fun d hd hown => .inl (hsettled d hd hown)
  · exact hsettled

/-- A run starts with nothing staged, and a fresh one with the project cleared. -/
theorem Begins.reaches (h : Begins S r docs) (hqueue : start.queue = some [])
    {parser : Parser} (hparser : parser.Sound S) (skipped : Nat) :
    ∃ left, Reaches S r docs start []
      (if r.isFresh then
        ⟨start.enqueue [.deleteProjectDocuments r.project.id], parser, [], 0, 0, skipped, 0, []⟩
      else ⟨start, parser, [], 0, 0, skipped, 0, []⟩) left := by
  have hstart : Queues r.started docs start start docs := by
    refine ⟨[], ?_, rfl, fun rows => rfl⟩
    rw [← hqueue]
  have hstaged {left : List Document} (hleft : ∀ d ∈ left, d.file.projectId = r.project.id →
      r.isFresh = false ∧ d ∈ docs) : Staged r docs [] left 0 [] :=
    ⟨by simp, .nil, by simp, by simp, fun d hd hown => .inr (hleft d hd hown)⟩
  split
  · rename_i hfresh
    have hothers {d : Document} (hd : d ∈ docs.filter (·.file.projectId != r.project.id)) :
        d.file.projectId ≠ r.project.id := by simpa using (List.mem_filter.mp hd).2
    refine ⟨docs.filter (·.file.projectId != r.project.id), hparser,
      hstart.enqueue fun rows => rfl, ?_, hstaged fun d hd hown => absurd hown (hothers hd)⟩
    refine ⟨by simp, h.files.sublist (List.filter_sublist.map _),
      fun d hd hown => absurd hown (hothers hd), fun hold => ?_⟩
    rw [hfresh] at hold
    simp at hold
  · rename_i hfresh
    exact ⟨docs, hparser, hstart,
      ⟨rfl, h.files, h.explained, fun _ d hd _ _ => hd⟩,
      hstaged fun d hd _ => ⟨by simpa using hfresh, hd⟩⟩

/-- A run that has queued all its changes leaves its project settled once they are made. -/
theorem Begins.settles (h : Begins S r docs) (hqueue : start.queue = some [])
    {parser : Parser} (hparser : parser.Sound S) (hsteady : S.Steady caller) {skipped : Nat}
    (hmeets : ∀ c ∈ candidates, S.Meets r.project.id r.project.rootPath c)
    (hdistinct : candidates.Pairwise fun c c' => c.relativePath ≠ c'.relativePath)
    (hfill : r.fill caller ⟨start, parser, [], 0, 0, skipped, 0, []⟩ candidates updated =
      (s, .ok ())) :
    ∃ ops, s.index = { start with queue := some ops } ∧
      Settles S r docs candidates s (ops.foldl (WriteOp.on r.started) docs) ∧
      ∀ rows, ops.foldl WriteOp.onProjects rows = rows.map (ProjectRow.updated updated) := by
  obtain ⟨s₁, s₂, hclear, htake, rfl⟩ := fill_eq_ok hfill
  obtain ⟨left, hreaches⟩ := h.reaches hqueue hparser skipped
  rw [← hclear] at hreaches
  obtain ⟨left, hreaches⟩ := hreaches.takeAll h hsteady hmeets hdistinct htake
  have hsettles := hreaches.settles h
  obtain ⟨ops, hindex, hleft, hrows⟩ := hreaches.queues.queue
  refine ⟨ops ++ ((r.erased s₂).map .deleteFile ++ [.saveProject updated]), ?_, ?_, ?_⟩
  · rw [hindex]
    rfl
  · rw [List.foldl_append, hleft, List.foldl_append, foldl_deleteFile]
    exact ⟨hsettles.others, hsettles.files, hsettles.explained, hsettles.staged,
      hsettles.settled⟩
  · intro rows
    rw [List.foldl_append, hrows, List.foldl_append, onProjects_deleteFile]
    rfl

theorem Staged.document_of_mem (h : Staged r docs candidates docs' failed staged)
    (hfiles : (docs'.map (·.file.id)).Nodup) {f : FileEntry} (hf : f ∈ staged) {d : Document}
    (hd : d ∈ docs') (hid : f.file.id = d.file.id) :
    d.file.projectId = r.project.id ∧ f.document = d.listed := by
  obtain ⟨e, he, hown, hdocument⟩ := h.kept f hf
  have hsame := List.inj_on_of_nodup_map hfiles hd he
    (hid.symm.trans (FileEntry.id_of_document_eq hdocument))
  rw [hsame]
  exact ⟨hown, hdocument⟩

theorem Settles.entries_perm (h : Settles S r docs candidates s docs') :
    (s.staged.map FileEntry.document).Perm
      ((docs'.filter (·.file.projectId == r.project.id)).map Document.listed) := by
  have hfiles : ((docs'.filter (·.file.projectId == r.project.id)).map Document.listed).Nodup := by
    refine List.Nodup.of_map (fun d => d.file.id) ?_
    rw [List.map_map]
    exact h.files.sublist (List.filter_sublist.map _)
  have hstaged : (s.staged.map FileEntry.document).Nodup := by
    refine List.Nodup.of_map (fun d => d.file.id) ?_
    rw [List.map_map]
    exact h.staged.distinct
  refine (List.perm_ext_iff_of_nodup hstaged hfiles).mpr fun d => ?_
  constructor
  · intro hd
    obtain ⟨f, hf, rfl⟩ := List.mem_map.mp hd
    obtain ⟨e, he, hown, hdocument⟩ := h.staged.kept f hf
    exact List.mem_map.mpr ⟨e, List.mem_filter.mpr ⟨he, by simpa using hown⟩, hdocument.symm⟩
  · intro hd
    obtain ⟨e, he, rfl⟩ := List.mem_map.mp hd
    obtain ⟨he, hown⟩ := List.mem_filter.mp he
    obtain ⟨f, hf, hid⟩ := h.settled e he (by simpa using hown)
    exact List.mem_map.mpr ⟨f, hf, (h.staged.document_of_mem h.files hf he hid).2⟩

theorem Settles.document_of_entry (h : Settles S r docs candidates s docs') (hnone : s.failed = 0)
    (hmeets : ∀ c ∈ candidates, S.Meets r.project.id r.project.rootPath c) {f : FileEntry}
    (hf : f ∈ s.staged) : ∃ c ∈ candidates, c.fits r.ignore = true ∧ ∃ d ∈ docs',
      d.file.projectId = r.project.id ∧ d.file.id = f.file.id ∧ f.file.id = r.idOf c ∧
      S.document? r.project.id c = some d.timeless := by
  obtain ⟨c, hc, hid, hsame⟩ := h.staged.taken f hf
  obtain ⟨hfits, hsum⟩ := hsame hnone
  obtain ⟨d, hd, hown, hdocument⟩ := h.staged.kept f hf
  have hids := FileEntry.id_of_document_eq hdocument
  have hsums := FileEntry.checksum_of_document_eq hdocument
  exact ⟨c, hc, hfits, d, hd, hown, hids.symm, hid, (h.explained d hd hown).document?_eq hown
    (hmeets c hc) (hids.symm.trans hid) (hsums.symm.trans hsum)⟩

theorem Settles.document_of_fits (h : Settles S r docs candidates s docs') (hnone : s.failed = 0)
    (hmeets : ∀ c ∈ candidates, S.Meets r.project.id r.project.rootPath c)
    (hdistinct : candidates.Pairwise fun c c' => c.relativePath ≠ c'.relativePath)
    (hc : c ∈ candidates) (hfits : c.fits r.ignore = true) :
    ∃ d ∈ docs', d.file.projectId = r.project.id ∧ d.file.id = r.idOf c ∧
      S.document? r.project.id c = some d.timeless := by
  obtain ⟨f, hf, hid⟩ := h.staged.complete hnone c hc hfits
  obtain ⟨c', hc', -, d, hd, hown, hids, hid', hdocument⟩ :=
    h.document_of_entry hnone hmeets hf
  have hpath : c'.relativePath = c.relativePath := by
    by_contra hne
    exact idOf_ne (hmeets c hc) (hmeets c' hc') hne (hid'.symm.trans hid)
  have hsame : c' = c :=
    List.inj_on_of_nodup_map (List.pairwise_map.mpr hdistinct) hc' hc hpath
  rw [hsame] at hdocument
  exact ⟨d, hd, hown, hids.trans hid, hdocument⟩

/-- If no file fails, the documents of the project are those of the candidates that fit. -/
theorem Settles.documents_perm (h : Settles S r docs candidates s docs') (hnone : s.failed = 0)
    (hmeets : ∀ c ∈ candidates, S.Meets r.project.id r.project.rootPath c)
    (hdistinct : candidates.Pairwise fun c c' => c.relativePath ≠ c'.relativePath) :
    ((docs'.filter (·.file.projectId == r.project.id)).map fun d => some d.timeless).Perm
      ((candidates.filter (Candidate.fits r.ignore)).map (S.document? r.project.id)) := by
  have hfiles : ((docs'.filter (·.file.projectId == r.project.id)).map fun d =>
      some d.timeless).Nodup := by
    refine List.Nodup.of_map (Option.map fun d : Document => d.file.id) ?_
    have hids := (h.files.sublist ((List.filter_sublist (p := fun d : Document =>
      d.file.projectId == r.project.id)).map _)).map (Option.some_injective String)
    rw [List.map_map] at hids ⊢
    exact hids
  have hcandidates : ((candidates.filter (Candidate.fits r.ignore)).map (S.document? r.project.id)).Nodup := by
    refine List.pairwise_map.mpr ((hdistinct.filter _).imp_of_mem fun {c c'} hc hc' hne heq => ?_)
    obtain ⟨hc, hfits⟩ := List.mem_filter.mp hc
    obtain ⟨hc', hfits'⟩ := List.mem_filter.mp hc'
    obtain ⟨d, -, -, hid, hd⟩ := h.document_of_fits hnone hmeets hdistinct hc hfits
    obtain ⟨d', -, -, hid', hd'⟩ := h.document_of_fits hnone hmeets hdistinct hc' hfits'
    have hsame : d.timeless = d'.timeless := Option.some.inj (hd.symm.trans (heq.trans hd'))
    have hids : d.timeless.file.id = d'.timeless.file.id := by rw [hsame]
    exact idOf_ne (hmeets c' hc') (hmeets c hc) hne (hid.symm.trans (hids.trans hid'))
  refine (List.perm_ext_iff_of_nodup hfiles hcandidates).mpr fun found => ?_
  constructor
  · intro hfound
    obtain ⟨d, hd, rfl⟩ := List.mem_map.mp hfound
    obtain ⟨hd, hown⟩ := List.mem_filter.mp hd
    obtain ⟨f, hf, hid⟩ := h.settled d hd (by simpa using hown)
    obtain ⟨c, hc, hfits, d', hd', -, hid', -, hdocument⟩ := h.document_of_entry hnone hmeets hf
    obtain rfl := List.inj_on_of_nodup_map h.files hd' hd (hid'.trans hid)
    exact List.mem_map.mpr ⟨c, List.mem_filter.mpr ⟨hc, hfits⟩, hdocument⟩
  · intro hfound
    obtain ⟨c, hc, rfl⟩ := List.mem_map.mp hfound
    obtain ⟨hc, hfits⟩ := List.mem_filter.mp hc
    obtain ⟨d, hd, hown, -, hdocument⟩ := h.document_of_fits hnone hmeets hdistinct hc hfits
    exact List.mem_map.mpr ⟨d, List.mem_filter.mpr ⟨hd, by simpa using hown⟩, hdocument.symm⟩

end Run

end CodeAtlas
