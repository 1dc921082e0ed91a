/-
Journals that differ in what they remember.

What a journal has been told so far is kept for the record and decides nothing: where lines go,
whether a file can be attached and what becomes of the files depends on the files and on what is
attached.  So two journals that agree on these stay in agreement, whatever they are told next.

This is what lets a session be compared with one whose journal was told more: in a run over the
same messages their journals write the same lines to the same files, although one of them has a
longer record.  There is one lemma for each thing that a journal can be asked to do.
-/
import VServer.Journal

namespace VServer.Journal

/-- Two journals that differ at most in what they remember. -/
structure Alike (j k : Journal) : Prop where
  disk : k.disk = j.disk
  target : k.target = j.target
  path : k.path = j.path

namespace Alike

variable {j k l : Journal}

theorem refl (j : Journal) : Alike j j :=
  ⟨rfl, rfl, rfl⟩

theorem trans (h : Alike j k) (h' : Alike k l) : Alike j l :=
  ⟨h'.disk.trans h.disk, h'.target.trans h.target, h'.path.trans h.path⟩

theorem isFileBacked (h : Alike j k) : k.isFileBacked = j.isFileBacked := by
  rw [Journal.isFileBacked, Journal.isFileBacked, h.target]

theorem write (h : Alike j k) (level : JournalLevel) (text : String) :
    Alike (j.write level text) (k.write level text) where
  disk := by simp only [Journal.write, remember, h.disk, h.target]
  target := h.target
  path := h.path

theorem discard (h : Alike j k) (path : String) : Alike (j.discard path) (k.discard path) := by
  unfold Journal.discard
  rw [h.disk]
  split
  · exact ⟨rfl, h.target, h.path⟩
  · exact h

/-- A file can be attached to both or to neither. -/
theorem attach (h : Alike j k) (path : String) :
    (k.attach path).2 = (j.attach path).2 ∧ Alike (j.attach path).1 (k.attach path).1 := by
  unfold Journal.attach
  rw [h.disk]
  split
  · exact ⟨rfl, rfl, h.target, h.path⟩
  · exact ⟨rfl, rfl, rfl, rfl⟩

theorem attachNew (h : Alike j k) (debug : Bool) (trace : TraceLevel) (path : String) :
    Alike (j.attachNew debug trace path).1 (k.attachNew debug trace path).1 := by
  obtain ⟨hresult, hattached⟩ := (h.discard path).attach path
  unfold Journal.attachNew
  split
  · generalize (k.discard path).attach path = attachedToK at hresult hattached ⊢
    generalize (j.discard path).attach path = attachedToJ at hresult hattached ⊢
    rcases attachedToJ with ⟨j', result⟩
    rcases attachedToK with ⟨k', result'⟩
    obtain rfl : result' = result := hresult
    cases result' <;> exact hattached
  · exact h

theorem start (h : Alike j k) (debug : Bool) (trace : TraceLevel) (path : String)
    (client : Option ClientInfo) :
    Alike (j.start debug trace path client).1 (k.start debug trace path client).1 :=
  ((h.attachNew debug trace path).write .info versionLine).write .info (clientLine client)

end Alike

/-- A line that goes to no file changes only what the journal remembers. -/
theorem write_alike {j : Journal} (h : j.target = none) (level : JournalLevel) (text : String) :
    Alike j (j.write level text) where
  disk := by simp [write, remember, h]
  target := rfl
  path := rfl

end VServer.Journal
