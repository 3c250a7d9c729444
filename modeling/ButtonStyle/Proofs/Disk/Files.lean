import Mathlib.Data.List.Basic
import ButtonStyle.Disk.Basic

/-!
# What changes on a disk

A file that has been written is found again where it was written, with what was written
(`read_of_write`).  Making the directories around a file leaves the file alone, if its path goes
nowhere up (`sameAt_makeParents`): if it is there, so are they, and if it is not, then nothing
stands in a directory that has just been made.
-/

namespace ButtonStyle

namespace Node

/-! ### Entries -/

@[simp] theorem lookup_putEntry_self (name : String) (node : Node) (entries : List (String × Node)) :
    (putEntry name node entries).lookup name = some node := by
  induction entries with
  | nil => simp [putEntry]
  | cons entry entries ih =>
    obtain ⟨key, old⟩ := entry
    by_cases h : key = name
    · simp [putEntry, h]
    · have hne : (name == key) = false := beq_eq_false_iff_ne.2 (Ne.symm h)
      simp [putEntry, h, List.lookup_cons, hne, ih]

theorem lookup_putEntry_of_ne {k name : String} (h : k ≠ name) (node : Node)
    (entries : List (String × Node)) :
    (putEntry name node entries).lookup k = entries.lookup k := by
  have hne : (k == name) = false := beq_eq_false_iff_ne.2 h
  induction entries with
  | nil => simp [putEntry, List.lookup_cons, hne]
  | cons entry entries ih =>
    obtain ⟨key, old⟩ := entry
    by_cases hkey : key = name
    · simp [putEntry, hkey, List.lookup_cons, hne]
    · simp [putEntry, hkey, List.lookup_cons, ih]

/-! ### Where names lead -/

theorem find?_append (node : Node) (names more : List String) :
    node.find? (names ++ more) = (node.find? names).bind (find? more) := by
  induction names generalizing node with
  | nil => rfl
  | cons name names ih =>
    cases node with
    | file content executable => rfl
    | directory entries =>
      simp only [List.cons_append, find?]
      cases entries.lookup name with
      | none => rfl
      | some child => exact ih child

/-- Whatever is found is found in a directory. -/
theorem exists_directory_of_find?_append {node child : Node} {names : List String} {name : String}
    (h : node.find? (names ++ [name]) = some child) :
    ∃ entries, node.find? names = some (directory entries) := by
  rw [find?_append] at h
  match hfound : node.find? names with
  | some (.directory entries) => exact ⟨entries, rfl⟩
  | some (.file _ _) =>
    rw [hfound] at h
    cases h
  | none =>
    rw [hfound] at h
    cases h

/-- What has been put into a directory is found there. -/
theorem find?_put {node : Node} {names : List String} {entries : List (String × Node)}
    (h : node.find? names = some (directory entries)) (name : String) (new : Node) :
    (node.put (names ++ [name]) new).find? (names ++ [name]) = some new := by
  induction names generalizing node with
  | nil =>
    cases h
    simp [put, find?]
  | cons m names ih =>
    cases node with
    | file content executable => cases h
    | directory all =>
      rw [find?] at h
      cases hm : all.lookup m with
      | none => simp [hm] at h
      | some child =>
        simp only [hm, Option.bind_some] at h
        simp [put, find?, hm, ih h]

/-- A directory stays one, and loses no entry, when something is put where no directory is. -/
theorem find?_put_directory {node : Node} {names : List String} {entries : List (String × Node)}
    (h : node.find? names = some (directory entries)) {place : List String}
    (hplace : ∀ entries, node.find? place ≠ some (directory entries)) (new : Node) :
    ∃ entries', (node.put place new).find? names = some (directory entries') ∧
      ∀ name, (entries.lookup name).isSome → (entries'.lookup name).isSome := by
  induction names generalizing node place with
  | nil =>
    cases h
    cases place with
    | nil => exact absurd rfl (hplace entries)
    | cons n place =>
      refine ⟨_, rfl, fun name hname => ?_⟩
      by_cases hne : name = n
      · simp [hne]
      · rwa [lookup_putEntry_of_ne hne]
  | cons m names ih =>
    cases node with
    | file content executable => cases h
    | directory all =>
      rw [find?] at h
      cases hm : all.lookup m with
      | none => simp [hm] at h
      | some child =>
        simp only [hm, Option.bind_some] at h
        cases place with
        | nil => exact absurd rfl (hplace all)
        | cons n place =>
          by_cases hne : m = n
          · subst hne
            have hchild : ∀ entries, child.find? place ≠ some (directory entries) := by
              simpa [find?, hm] using hplace
            simpa [put, find?, hm] using ih h hchild
          · refine ⟨entries, ?_, fun _ => id⟩
            simpa [put, find?, lookup_putEntry_of_ne hne, hm] using h

/-- Nothing stands in a directory that has just been made. -/
theorem find?_put_empty {node : Node} {names : List String} (h : node.find? names = none)
    (name : String) (more : List String) :
    (node.put names (directory [])).find? (names ++ name :: more) = none := by
  induction names generalizing node with
  | nil => cases h
  | cons m names ih =>
    cases node with
    | file content executable => rfl
    | directory all =>
      rw [find?] at h
      simp only [put, List.cons_append, find?, lookup_putEntry_self, Option.bind_some]
      cases hm : all.lookup m with
      | some child =>
        simp only [hm, Option.bind_some] at h
        exact ih h
      | none =>
        cases names with
        | nil => rfl
        | cons m' names => exact ih rfl

end Node

namespace Disk

/-! ### Where steps lead -/

/-- What is true of a place to which steps lead. -/
def Sound (d : Disk) : Place → Prop
  | .taken names node => d.root.find? names = some node
  | .free names => ∃ around name entries, names = around ++ [name] ∧
      d.root.find? around = some (.directory entries) ∧ entries.lookup name = none

/-- The first of several steps is taken within a directory: it stays there, goes up, goes to an entry,
or is the last step and goes to a name that is free. -/
theorem follow_cons {d : Disk} {names : List String} {step : Path.Step} {steps : List Path.Step}
    {place : Place} (h : d.follow names (step :: steps) = .ok place) :
    ∃ entries, d.root.find? names = some (.directory entries) ∧
      (step = .here ∧ d.follow names steps = .ok place ∨
        step = .up ∧ d.follow names.dropLast steps = .ok place ∨
        ∃ name, step = .name name ∧ Node.tooLong name = false ∧
          ((entries.lookup name).isSome ∧ d.follow (names ++ [name]) steps = .ok place ∨
            entries.lookup name = none ∧ steps = [] ∧ place = .free (names ++ [name]))) := by
  rw [follow] at h
  split at h
  · rename_i entries hentries
    refine ⟨entries, hentries, ?_⟩
    cases step with
    | here => exact .inl ⟨rfl, h⟩
    | up => exact .inr (.inl ⟨rfl, h⟩)
    | name name =>
      refine .inr (.inr ⟨name, rfl, ?_⟩)
      by_cases hlong : Node.tooLong name = true
      · simp [hlong] at h
      · simp only [hlong] at h
        refine ⟨by simpa using hlong, ?_⟩
        cases hname : entries.lookup name with
        | some child =>
          rw [hname] at h
          exact .inl ⟨rfl, h⟩
        | none =>
          rw [hname] at h
          cases steps with
          | nil =>
            cases h
            exact .inr ⟨rfl, rfl, rfl⟩
          | cons => cases h
  · cases h
  · cases h

theorem follow_nil {d : Disk} {names : List String} {place : Place}
    (h : d.follow names [] = .ok place) :
    ∃ node, d.root.find? names = some node ∧ place = .taken names node := by
  rw [follow] at h
  split at h
  · cases h
    exact ⟨_, ‹_›, rfl⟩
  · cases h

theorem sound_of_follow {d : Disk} {names : List String} {steps : List Path.Step} {place : Place}
    (h : d.follow names steps = .ok place) : d.Sound place := by
  induction steps generalizing names with
  | nil =>
    obtain ⟨node, hnode, rfl⟩ := follow_nil h
    exact hnode
  | cons step steps ih =>
    obtain ⟨entries, hentries, ⟨-, h⟩ | ⟨-, h⟩ | ⟨name, -, -, ⟨-, h⟩ | ⟨hname, -, rfl⟩⟩⟩ :=
      follow_cons h
    · exact ih h
    · exact ih h
    · exact ih h
    · exact ⟨names, name, entries, rfl, hentries, hname⟩

/-- Whatever is free is not there. -/
theorem find?_eq_none_of_sound {d : Disk} {names : List String} (h : d.Sound (.free names)) :
    d.root.find? names = none := by
  obtain ⟨around, name, entries, rfl, haround, hname⟩ := h
  simp [Node.find?_append, haround, Node.find?, hname]

/-! ### Writing -/

/-- The names of a place. -/
def Place.names : Place → List String
  | taken names _ => names
  | free names => names

/-- Whether a file can be written at a place. -/
def Place.isOpen : Place → Bool
  | taken _ (.directory _) => false
  | _ => true

theorem find?_ne_directory {d : Disk} {place : Place} (h : d.Sound place)
    (hopen : place.isOpen = true) (entries : List (String × Node)) :
    d.root.find? place.names ≠ some (.directory entries) := by
  intro hdirectory
  match place with
  | .taken names (.file _ _) => cases h.symm.trans hdirectory
  | .taken names (.directory _) => cases hopen
  | .free names => cases (find?_eq_none_of_sound h).symm.trans hdirectory

/-- What is put at a place is found there. -/
theorem find?_put_place {d : Disk} {place : Place} (h : d.Sound place) (new : Node) :
    (d.root.put place.names new).find? place.names = some new := by
  match place with
  | .taken names node =>
    rcases List.eq_nil_or_concat names with rfl | ⟨around, name, rfl⟩
    · cases d.root <;> rfl
    · rw [List.concat_eq_append] at h ⊢
      obtain ⟨entries, haround⟩ := Node.exists_directory_of_find?_append h
      exact Node.find?_put haround name new
  | .free names =>
    obtain ⟨around, name, entries, rfl, haround, -⟩ := h
    exact Node.find?_put haround name new

/-- The steps that led to a place lead to what has been put there. -/
theorem follow_put {d : Disk} {names : List String} {steps : List Path.Step} {place : Place}
    (h : d.follow names steps = .ok place) (hopen : place.isOpen = true) (new : Node) :
    follow ⟨d.root.put place.names new⟩ names steps = .ok (.taken place.names new) := by
  have hsound := sound_of_follow h
  have hplace := find?_ne_directory hsound hopen
  have hnew := find?_put_place hsound new
  induction steps generalizing names with
  | nil =>
    obtain ⟨node, hnode, rfl⟩ := follow_nil h
    rw [follow]
    simp only [Place.names] at hnew ⊢
    rw [hnew]
  | cons step steps ih =>
    obtain ⟨entries, hentries, hcases⟩ := follow_cons h
    obtain ⟨entries', hentries', hkept⟩ := Node.find?_put_directory hentries hplace new
    rw [follow]
    simp only [hentries']
    rcases hcases with ⟨rfl, hrest⟩ | ⟨rfl, hrest⟩ |
      ⟨name, rfl, hlong, ⟨hname, hrest⟩ | ⟨-, rfl, rfl⟩⟩
    · exact ih hrest
    · exact ih hrest
    · obtain ⟨child, hchild⟩ := Option.isSome_iff_exists.1 (hkept name hname)
      simp only [hlong, hchild]
      exact ih hrest
    · simp only [Place.names] at hnew hentries' ⊢
      have hchild : (entries'.lookup name) = some new := by
        rw [Node.find?_append, hentries'] at hnew
        simpa [Node.find?] using hnew
      rw [hchild]
      simp [hlong, follow, hnew]

/-- What is written is put as a file where the steps lead. -/
theorem write_eq_ok {d d' : Disk} {p : Path} {content : ByteArray}
    (h : d.write p content = .ok d') : check p = .ok () ∧ p.endsInSlash = false ∧
      ∃ place executable, d.follow [] p.steps = .ok place ∧ place.isOpen = true ∧
        d' = ⟨d.root.put place.names (.file content executable)⟩ := by
  rw [write] at h
  cases hcheck : check p with
  | error why => simp [hcheck, bind, Except.bind] at h
  | ok =>
    rw [hcheck] at h
    by_cases hslash : p.endsInSlash = true
    · simp [hslash, bind, Except.bind] at h
    · simp only [hslash] at h
      refine ⟨rfl, by simpa using hslash, ?_⟩
      cases hfollow : d.follow [] p.steps with
      | error why => simp [hfollow, bind, Except.bind] at h
      | ok place =>
        rw [hfollow] at h
        match place with
        | .taken names (.directory _) => cases h
        | .taken names (.file _ executable) =>
          cases h
          exact ⟨_, executable, rfl, rfl, rfl⟩
        | .free names =>
          cases h
          exact ⟨_, false, rfl, rfl, rfl⟩

/-- **A file that has been written is there, with what was written.** -/
theorem read_of_write {d d' : Disk} {p : Path} {content : ByteArray}
    (h : d.write p content = .ok d') : d'.holds p = true ∧ d'.read p = .ok content := by
  obtain ⟨hcheck, hslash, place, executable, hfollow, hopen, rfl⟩ := write_eq_ok h
  have hlocate : locate ⟨d.root.put place.names (.file content executable)⟩ p =
      .ok (.taken place.names (.file content executable)) := by
    rw [locate, hcheck]
    simp only [bind, Except.bind]
    rw [follow_put hfollow hopen, hslash]
    rfl
  rw [holds, read, hlocate]
  exact ⟨rfl, rfl⟩

/-! ### Making directories -/

/-- The names among steps. -/
def stepNames : List Path.Step → List String
  | [] => []
  | .name name :: steps => name :: stepNames steps
  | _ :: steps => stepNames steps

theorem stepNames_append (steps more : List Path.Step) :
    stepNames (steps ++ more) = stepNames steps ++ stepNames more := by
  induction steps with
  | nil => rfl
  | cons step steps ih => cases step <;> simp [stepNames, ih]

/-- Steps that stay where they are have no names. -/
theorem stepNames_filter (steps : List Path.Step) :
    stepNames (steps.filter (· ≠ .here)) = stepNames steps := by
  induction steps with
  | nil => rfl
  | cons step steps ih =>
    cases step with
    | name name =>
      rw [List.filter_cons_of_pos (by simp), stepNames, stepNames, ih]
    | here =>
      rw [List.filter_cons_of_neg (by simp), ih]
      rfl
    | up =>
      rw [List.filter_cons_of_pos (by simp)]
      exact ih

/-- Steps that go nowhere up lead along their names. -/
theorem names_of_follow {d : Disk} {names : List String} {steps : List Path.Step} {place : Place}
    (hup : .up ∉ steps) (h : d.follow names steps = .ok place) :
    place.names = names ++ stepNames steps := by
  induction steps generalizing names with
  | nil =>
    obtain ⟨node, -, rfl⟩ := follow_nil h
    simp [Place.names, stepNames]
  | cons step steps ih =>
    have hup' : .up ∉ steps := fun hmem => hup (List.mem_cons_of_mem _ hmem)
    obtain ⟨-, -, ⟨rfl, hrest⟩ | ⟨rfl, -⟩ | ⟨name, rfl, -, ⟨-, hrest⟩ | ⟨-, rfl, rfl⟩⟩⟩ :=
      follow_cons h
    · simpa [stepNames] using ih hup' hrest
    · exact absurd List.mem_cons_self hup
    · simpa [stepNames] using ih hup' hrest
    · rfl

theorem follow_of_locate {d : Disk} {p : Path} {place : Place} (h : d.locate p = .ok place) :
    d.follow [] p.steps = .ok place := by
  rw [locate] at h
  cases hcheck : check p with
  | error why => simp [hcheck, bind, Except.bind] at h
  | ok =>
    cases hfollow : d.follow [] p.steps with
    | error why => simp [hcheck, hfollow, bind, Except.bind] at h
    | ok found =>
      simp only [hcheck, hfollow, bind, Except.bind] at h
      split at h
      · split_ifs at h
        exact h
      · exact h

/-- If nothing is where the names lead, a path that goes nowhere up leads to nothing. -/
theorem holds_eq_false {d : Disk} {p : Path} (hup : .up ∉ p.steps)
    (h : d.root.find? (stepNames p.steps) = none) : d.holds p = false := by
  rw [holds]
  split
  · rename_i names node hlocate
    have hfollow := follow_of_locate hlocate
    have hnames : names = stepNames p.steps := names_of_follow hup hfollow
    have hsound := sound_of_follow hfollow
    rw [hnames] at hsound
    cases hsound.symm.trans h
  · rfl

/-- A path leads to the same as before, if only for the reason that it leads to nothing. -/
def SameAt (p : Path) (d d' : Disk) : Prop := d' = d ∨ d.holds p = false ∧ d'.holds p = false

theorem SameAt.trans {p : Path} {d d' d'' : Disk} (h : SameAt p d d') (h' : SameAt p d' d'') :
    SameAt p d d'' := by
  rcases h with rfl | ⟨hd, hd'⟩
  · exact h'
  · rcases h' with rfl | ⟨-, hd''⟩
    · exact .inr ⟨hd, hd'⟩
    · exact .inr ⟨hd, hd''⟩

section Directories

variable {p : Path} (hp : .up ∉ p.steps)
include hp

/-- Steps on the way to a path do not change what it leads to by being made a directory. -/
theorem sameAt_makeDirectory {d d' : Disk} {before : List Path.Step} (hup : .up ∉ before)
    {name : String} {more : List String}
    (hnames : stepNames p.steps = stepNames before ++ name :: more)
    (h : d.makeDirectory before = .ok d') : SameAt p d d' := by
  rw [makeDirectory] at h
  split at h
  · cases h
  · rename_i names hfollow
    cases h
    have hnone := find?_eq_none_of_sound (sound_of_follow hfollow)
    have hbefore : names = stepNames before := names_of_follow hup hfollow
    rw [hbefore] at hnone ⊢
    refine .inr ⟨holds_eq_false hp ?_, holds_eq_false hp ?_⟩
    · rw [hnames, Node.find?_append, hnone]
      rfl
    · rw [hnames]
      exact Node.find?_put_empty hnone name more
  · cases h

theorem sameAt_makeDirectoryIfMissing {d d' : Disk} {before : List Path.Step}
    (hup : .up ∉ before) {name : String} {more : List String}
    (hnames : stepNames p.steps = stepNames before ++ name :: more)
    (h : d.makeDirectoryIfMissing before = .ok d') : SameAt p d d' := by
  rw [makeDirectoryIfMissing] at h
  cases hmake : d.makeDirectory before with
  | ok new =>
    rw [hmake] at h
    cases h
    exact sameAt_makeDirectory hp hup hnames hmake
  | error why =>
    rw [hmake] at h
    simp only at h
    split_ifs at h
    cases h
    exact .inl rfl

/-- The steps on the way to a path, the last first, may all be made directories. -/
theorem sameAt_makeDirectories (d : Disk) (steps : List Path.Step) (hup : .up ∉ steps)
    {name : String} {more : List String}
    (hnames : stepNames p.steps = stepNames steps.reverse ++ name :: more) :
    SameAt p d (d.makeDirectories steps).2 := by
  induction steps generalizing d name more with
  | nil => exact .inl rfl
  | cons last before ih =>
    have hlast : .up ∉ (last :: before).reverse := fun hmem => hup (List.mem_reverse.1 hmem)
    have hbefore : .up ∉ before := fun hmem => hup (List.mem_cons_of_mem _ hmem)
    have ih' : SameAt p d (d.makeDirectories before).2 := by
      rw [List.reverse_cons, stepNames_append, List.append_assoc] at hnames
      cases last with
      | name n => exact ih d hbefore hnames
      | here => exact ih d hbefore hnames
      | up => exact absurd List.mem_cons_self hup
    rw [makeDirectories]
    cases hmake : d.makeDirectoryIfMissing (last :: before).reverse with
    | ok new => exact sameAt_makeDirectoryIfMissing hp hlast hnames hmake
    | error why =>
      cases why with
      | notFound =>
        obtain ⟨r, new, hbelow⟩ : ∃ r new, d.makeDirectories before = (r, new) := ⟨_, _, rfl⟩
        rw [hbelow] at ih'
        simp only [hbelow]
        cases r with
        | error why => exact ih'
        | ok =>
          simp only
          cases hlast' : new.makeDirectoryIfMissing (last :: before).reverse with
          | ok newer =>
            exact ih'.trans (sameAt_makeDirectoryIfMissing hp hlast hnames hlast')
          | error why => exact ih'
      | _ => exact .inl rfl

/-- **Making the directories around a file leaves what its path leads to alone.** -/
theorem sameAt_makeParents (d : Disk) : SameAt p d (d.makeParents p).2 := by
  rw [makeParents]
  split_ifs
  · exact .inl rfl
  · rcases List.eq_nil_or_concat (p.steps.filter (· ≠ .here)) with hsteps | ⟨before, last, hsteps⟩
    · rw [Path.parentSteps, hsteps]
      exact .inl rfl
    · rw [List.concat_eq_append] at hsteps
      have hmem : ∀ step ∈ before ++ [last], step ∈ p.steps ∧ step ≠ .here := by
        intro step hstep
        rw [← hsteps] at hstep
        simpa using hstep
      have hbefore : .up ∉ before.reverse := by
        intro hup
        exact hp (hmem .up (List.mem_append_left _ (List.mem_reverse.1 hup))).1
      have hlast := hmem last (by simp)
      have hnames : stepNames p.steps = stepNames before.reverse.reverse ++ stepNames [last] := by
        rw [List.reverse_reverse, ← stepNames_append, ← hsteps, stepNames_filter]
      rw [Path.parentSteps, hsteps, List.dropLast_concat]
      cases last with
      | name n => exact sameAt_makeDirectories hp d _ hbefore hnames
      | here => exact absurd rfl hlast.2
      | up => exact absurd hlast.1 hp

end Directories

end Disk

end ButtonStyle
