import ButtonStyle.Proofs.Disk.Files

/-!
# Files beside what changes

A file is left alone by whatever is put elsewhere on a disk.  So it is read as before when a
directory has been made (`read_makeParents`), and when another file has been written
(`read_of_write_apart`).
-/

namespace ButtonStyle

namespace Node

/-- A file stays when something is put elsewhere where no directory is. -/
theorem find?_put_of_ne {node : Node} {names place : List String} {content : ByteArray}
    {executable : Bool} (h : node.find? names = some (file content executable))
    (hplace : ∀ entries, node.find? place ≠ some (directory entries)) (hne : names ≠ place)
    (new : Node) : (node.put place new).find? names = some (file content executable) := by
  induction names generalizing node place with
  | nil =>
    cases h
    cases place with
    | nil => exact absurd rfl hne
    | cons n place => rfl
  | cons m names ih =>
    cases node with
    | file => cases h
    | directory all =>
      rw [find?] at h
      cases hm : all.lookup m with
      | none => simp [hm] at h
      | some child =>
        simp only [hm, Option.bind_some] at h
        cases place with
        | nil => exact absurd rfl (hplace all)
        | cons n place =>
          by_cases hn : m = n
          · subst hn
            have hchild : ∀ entries, child.find? place ≠ some (directory entries) := by
              simpa [find?, hm] using hplace
            have hne' : names ≠ place := fun heq => hne (heq ▸ rfl)
            simpa [put, find?, hm] using ih h hchild hne'
          · simpa [put, find?, lookup_putEntry_of_ne hn, hm] using h

end Node

namespace Disk

/-! ### Reading -/

/-- What is read of a file is what stands where its path leads. -/
theorem read_eq_ok_iff {d : Disk} {p : Path} {content : ByteArray} :
    d.read p = .ok content ↔ check p = .ok () ∧ p.endsInSlash = false ∧
      ∃ names executable, d.follow [] p.steps = .ok (.taken names (.file content executable)) := by
  constructor
  · intro h
    rw [read] at h
    split at h
    · rename_i names content' executable hlocate
      cases h
      have hfollow := follow_of_locate hlocate
      rw [locate] at hlocate
      cases hcheck : check p with
      | error why => simp [hcheck, bind, Except.bind] at hlocate
      | ok =>
        refine ⟨rfl, ?_, names, executable, hfollow⟩
        simpa [hcheck, hfollow, bind, Except.bind] using hlocate
    · cases h
    · cases h
    · cases h
  · rintro ⟨hcheck, hslash, names, executable, hfollow⟩
    simp [read, locate, hcheck, hslash, hfollow, bind, Except.bind]

/-! ### Putting something elsewhere -/

/-- The steps that led to a file still do when something is put elsewhere where no directory is. -/
theorem follow_put_of_ne {d : Disk} {names target place : List String} {steps : List Path.Step}
    {content : ByteArray} {executable : Bool}
    (h : d.follow names steps = .ok (.taken target (.file content executable)))
    (hplace : ∀ entries, d.root.find? place ≠ some (.directory entries)) (hne : target ≠ place)
    (new : Node) :
    follow ⟨d.root.put place new⟩ names steps =
      .ok (.taken target (.file content executable)) := by
  induction steps generalizing names with
  | nil =>
    obtain ⟨node, hnode, heq⟩ := follow_nil h
    cases heq
    rw [follow, Node.find?_put_of_ne hnode hplace hne new]
  | cons step steps ih =>
    obtain ⟨entries, hentries, hcases⟩ := follow_cons h
    obtain ⟨entries', hentries', hkept⟩ := Node.find?_put_directory hentries hplace new
    rw [follow]
    simp only [hentries']
    rcases hcases with ⟨rfl, hrest⟩ | ⟨rfl, hrest⟩ |
      ⟨name, rfl, hlong, ⟨hname, hrest⟩ | ⟨-, rfl, heq⟩⟩
    · exact ih hrest
    · exact ih hrest
    · obtain ⟨child, hchild⟩ := Option.isSome_iff_exists.1 (hkept name hname)
      simp only [hlong, hchild]
      exact ih hrest
    · cases heq

/-- A file is read as before when something is put elsewhere where no directory is. -/
theorem read_put_of_ne {d : Disk} {f : Path} {content : ByteArray} {place : List String}
    (h : d.read f = .ok content)
    (hplace : ∀ entries, d.root.find? place ≠ some (.directory entries))
    (hne : ∀ target executable,
      d.follow [] f.steps = .ok (.taken target (.file content executable)) → target ≠ place)
    (new : Node) : read ⟨d.root.put place new⟩ f = .ok content := by
  obtain ⟨hcheck, hslash, names, executable, hfollow⟩ := read_eq_ok_iff.1 h
  refine read_eq_ok_iff.2 ⟨hcheck, hslash, names, executable, ?_⟩
  exact follow_put_of_ne hfollow hplace (hne _ _ hfollow) new

/-! ### Making directories -/

/-- **A file is read as before when a directory has been made.** -/
theorem read_makeDirectory {d d' : Disk} {f : Path} {content : ByteArray}
    (h : d.read f = .ok content) {steps : List Path.Step} (hmake : d.makeDirectory steps = .ok d') :
    d'.read f = .ok content := by
  rw [makeDirectory] at hmake
  split at hmake
  · cases hmake
  · rename_i names hfree
    cases hmake
    have hnone := find?_eq_none_of_sound (sound_of_follow hfree)
    refine read_put_of_ne h (fun entries => by simp [hnone]) ?_ _
    -- The place was free, and a file is where something is.
    rintro target executable hfollow rfl
    have hfound := sound_of_follow hfollow
    rw [Sound, hnone] at hfound
    cases hfound
  · cases hmake

theorem read_makeDirectoryIfMissing {d d' : Disk} {f : Path} {content : ByteArray}
    (h : d.read f = .ok content) {steps : List Path.Step}
    (hmake : d.makeDirectoryIfMissing steps = .ok d') : d'.read f = .ok content := by
  rw [makeDirectoryIfMissing] at hmake
  cases hnew : d.makeDirectory steps with
  | ok new =>
    rw [hnew] at hmake
    cases hmake
    exact read_makeDirectory h hnew
  | error why =>
    rw [hnew] at hmake
    simp only at hmake
    split_ifs at hmake
    cases hmake
    exact h

theorem read_makeDirectories {d : Disk} {f : Path} {content : ByteArray}
    (h : d.read f = .ok content) (steps : List Path.Step) :
    (d.makeDirectories steps).2.read f = .ok content := by
  induction steps generalizing d with
  | nil => exact h
  | cons last before ih =>
    rw [makeDirectories]
    cases hmake : d.makeDirectoryIfMissing (last :: before).reverse with
    | ok new => exact read_makeDirectoryIfMissing h hmake
    | error why =>
      cases why with
      | notFound =>
        have hbefore := ih h
        obtain ⟨r, new, hnew⟩ : ∃ r new, d.makeDirectories before = (r, new) := ⟨_, _, rfl⟩
        rw [hnew] at hbefore
        simp only [hnew]
        cases r with
        | error why => exact hbefore
        | ok =>
          simp only
          cases hlast : new.makeDirectoryIfMissing (last :: before).reverse with
          | ok newer => exact read_makeDirectoryIfMissing hbefore hlast
          | error why => exact hbefore
      | _ => exact h

/-- **A file is read as before when the directories around another one have been made.** -/
theorem read_makeParents {d : Disk} {f : Path} {content : ByteArray} (h : d.read f = .ok content)
    (p : Path) : (d.makeParents p).2.read f = .ok content := by
  rw [makeParents]
  split_ifs
  · exact h
  · exact read_makeDirectories h _

end Disk

/-! ### Writing another file -/

/-- Two paths never lead to the same place. -/
def Path.Apart (p f : Path) : Prop :=
  ∀ (d : Disk) (place place' : Disk.Place), d.follow [] p.steps = .ok place →
    d.follow [] f.steps = .ok place' → place.names ≠ place'.names

/-- Paths that go nowhere up lead along their names. -/
theorem Path.apart_of_names {p f : Path} (hp : .up ∉ p.steps) (hf : .up ∉ f.steps)
    (hne : Disk.stepNames p.steps ≠ Disk.stepNames f.steps) : p.Apart f := by
  intro d place place' hplace hplace'
  rw [Disk.names_of_follow hp hplace, Disk.names_of_follow hf hplace']
  exact hne

/-- **A file is read as before when another one has been written.** -/
theorem Disk.read_of_write_apart {d d' : Disk} {p f : Path} (hapart : p.Apart f)
    {content new : ByteArray} (h : d.read f = .ok content) (hwrite : d.write p new = .ok d') :
    d'.read f = .ok content := by
  obtain ⟨-, -, place, executable, hfollow, hopen, rfl⟩ := write_eq_ok hwrite
  refine read_put_of_ne h (find?_ne_directory (sound_of_follow hfollow) hopen) ?_ _
  intro target executable' htarget heq
  exact hapart d place _ hfollow htarget heq.symm

end ButtonStyle
