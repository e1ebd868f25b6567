import CodeAtlas.Proofs.Engine.Discover
import CodeAtlas.Proofs.Engine.Runs

/-!
# What a run does with a candidate

A candidate that a run takes up is refused by the system, skipped, kept, read again without being written,
put, or it fails.
Here is what each of these does to the state of the run, and that the parser stays sound whatever
happens.
-/

namespace CodeAtlas

/-- Parsing finds the same for this caller as for one who waits, whenever it is reached. -/
def Setting.Steady (S : Setting) (caller : Caller) : Prop :=
  ∀ q, S.Asks q → caller.waits (.take q.path) = true →
    Parser.parseFresh S.config S.tool (caller.waits (.parse q.path)) q = S.parse q

/-- A caller who gives up in the middle of a file is the only one for whom parsing differs. -/
theorem Setting.steady_of_waits {S : Setting} {caller : Caller}
    (h : ∀ path, caller.waits (.take path) = true → caller.waits (.parse path) = true) :
    S.Steady caller := by
  intro q _ htaken
  rw [h q.path htaken]
  rfl

theorem Setting.steady_patient (S : Setting) : S.Steady .patient :=
  steady_of_waits fun _ _ => rfl

namespace Run

/-- What is known of a candidate whose content has not changed. -/
def known? (r : Run) (c : Candidate) : Option FileEntry :=
  (r.prior? (fileId r.project.id c.relativePath)).filter fun f =>
    !r.isFresh && f.file.checksum == checksum c.content

def documentOf (r : Run) (c : Candidate) (found : FileSymbols) : Document :=
  ⟨r.fileOf (fileId r.project.id c.relativePath) c (decode c.content), (decode c.content).text,
    found.symbols, found.references⟩

def entryOf (file : IndexedFile) (found : FileSymbols) : FileEntry :=
  ⟨file, found.symbols, found.references, some found.usages⟩

/-- The ways in which a candidate is taken up. -/
inductive Takes (r : Run) (live : Bool) (s : RunState) (c : Candidate) : RunState → Prop where
  | refused {message : String} (hrefused : c.refusal? r.ignore = some message) :
      Takes r live s c (r.fail s (fileId r.project.id c.relativePath) c message)
  | skipped (hfits : c.fits r.ignore = false) : Takes r live s c { s with skipped := s.skipped + 1 }
  | kept {f : FileEntry} (hfits : c.fits r.ignore = true) (hknown : r.known? c = some f) :
      Takes r live s c { s with staged := s.staged ++ [f], unchanged := s.unchanged + 1 }
  | failed {parser : Parser} {e : TooLarge} (hfits : c.fits r.ignore = true)
      (hparse : s.parser.parse live (c.request r.project.id) = (.error e, parser)) :
      Takes r live s c
        (r.fail { s with parser } (fileId r.project.id c.relativePath) c e.message)
  | reread {f : FileEntry} {result : ParseResult} {cached : Bool} {parser : Parser}
      (hfits : c.fits r.ignore = true) (hknown : r.known? c = some f)
      (hparse : s.parser.parse live (c.request r.project.id) = (.ok (result, cached), parser)) :
      Takes r live s c { s with
        parser, staged := s.staged ++ [entryOf f.file result.found]
        unchanged := s.unchanged + 1 }
  | put {result : ParseResult} {cached : Bool} {parser : Parser}
      (hfits : c.fits r.ignore = true) (hknown : r.known? c = none)
      (hparse : s.parser.parse live (c.request r.project.id) = (.ok (result, cached), parser)) :
      Takes r live s c { s with
        parser, index := s.index.enqueue [.put (r.documentOf c result.found)]
        staged := s.staged ++ [entryOf (r.documentOf c result.found).file result.found]
        indexed := s.indexed + 1 }

variable {r : Run} {caller : Caller} {s s' : RunState} {c : Candidate}

theorem takes_of_takeContent (hfits : c.fits r.ignore = true)
    (h : r.takeContent caller s c = (s', .ok ())) :
    r.Takes (caller.waits (.parse c.relativePath)) s c s' := by
  unfold takeContent at h
  simp only at h
  split at h
  · rename_i file symbols references usages hknown
    obtain ⟨rfl, -⟩ := Prod.mk.inj h
    exact .kept hfits hknown
  · rename_i known hunread
    split at h
    · rename_i e parser hparse
      obtain ⟨rfl, -⟩ := Prod.mk.inj h
      exact .failed hfits hparse
    · rename_i result cached parser hparse
      split at h
      · rename_i f hknown
        obtain ⟨rfl, -⟩ := Prod.mk.inj h
        exact .reread hfits hknown hparse
      · rename_i hknown
        split at h
        · simp at h
        · rename_i index hqueued
          rw [inContext_eq_ok_iff] at hqueued
          split at hqueued
          · obtain rfl := Index.eq_enqueue_of_submit hqueued
            obtain ⟨rfl, -⟩ := Prod.mk.inj h
            exact .put hfits hknown hparse
          · simp at hqueued

theorem takes_of_take (h : r.take caller s c = (s', .ok ())) :
    caller.waits (.take c.relativePath) = true ∧
      r.Takes (caller.waits (.parse c.relativePath)) s c s' := by
  by_cases hwaits : caller.waits (.take c.relativePath) = true
  · refine ⟨hwaits, ?_⟩
    rw [take_of_waits hwaits] at h
    split at h
    · rename_i message hrefused
      obtain ⟨rfl, -⟩ := Prod.mk.inj h
      exact .refused hrefused
    · split at h
      · exact takes_of_takeContent ‹_› h
      · rename_i hfits
        obtain ⟨rfl, -⟩ := Prod.mk.inj h
        exact .skipped (by simpa using hfits)
  · rw [take_of_leaves (by simpa using hwaits)] at h
    simp at h

theorem parser_takeContent (r : Run) (caller : Caller) (s : RunState) (c : Candidate) :
    (r.takeContent caller s c).1.parser = s.parser ∨ (r.takeContent caller s c).1.parser =
      (s.parser.parse (caller.waits (.parse c.relativePath)) (c.request r.project.id)).2 := by
  unfold takeContent
  simp only
  split
  · exact .inl rfl
  · refine .inr ?_
    have hasked : (⟨fileId r.project.id c.relativePath, c.relativePath,
      (decode c.content).bytes, c.language⟩ : ParseRequest) = c.request r.project.id := rfl
    rw [hasked]
    split
    · rename_i hparse
      rw [hparse]
      rfl
    · rename_i hparse
      rw [hparse]
      split
      · rfl
      · split <;> rfl

/-- Whatever happens to the candidate, the parser was asked about it at most once. -/
theorem parser_take (r : Run) (caller : Caller) (s : RunState) (c : Candidate) :
    (r.take caller s c).1.parser = s.parser ∨
      caller.waits (.take c.relativePath) = true ∧ (r.take caller s c).1.parser =
        (s.parser.parse (caller.waits (.parse c.relativePath)) (c.request r.project.id)).2 := by
  by_cases hwaits : caller.waits (.take c.relativePath) = true
  · rw [take_of_waits hwaits]
    split
    · exact .inl rfl
    · split
      · exact (parser_takeContent r caller s c).imp_right fun hasked => ⟨hwaits, hasked⟩
      · exact .inl rfl
  · rw [take_of_leaves (by simpa using hwaits)]
    exact .inl rfl

variable {S : Setting}

theorem take_sound (hparser : s.parser.Sound S) (hsteady : S.Steady caller)
    (hmeets : S.Meets r.project.id r.project.rootPath c) :
    (r.take caller s c).1.parser.Sound S := by
  obtain hsame | ⟨hwaits, hasked⟩ := parser_take r caller s c
  · rw [hsame]
    exact hparser
  · rw [hasked]
    exact (hparser.parse hmeets.asks (hsteady _ hmeets.asks hwaits)).2

theorem parser_queue (live : Bool) (s : RunState) (op : WriteOp) :
    (queue live s op).1.parser = s.parser := by
  unfold queue
  split
  · split <;> rfl
  · rfl

theorem fill_sound {candidates : List Candidate} (hparser : s.parser.Sound S)
    (hsteady : S.Steady caller)
    (hmeets : ∀ c ∈ candidates, S.Meets r.project.id r.project.rootPath c) (updated : Project) :
    (r.fill caller s candidates updated).1.parser.Sound S :=
  fill_preserves (P := fun s' => s'.parser.Sound S)
    (fun live s' op h => by
      rw [parser_queue]
      exact h)
    (fun _ c hc h => take_sound h hsteady (hmeets c hc)) hparser updated

end Run

end CodeAtlas
