import ButtonStyle.Procedure
import ButtonStyle.Proofs.Disk.Apart

/-!
# Files of a system

What a procedure finds at a path, and what a system has to do so that a file is only changed by
writing it (`System.KeepsFile`).  A desk does so for the paths that go nowhere up
(`Desk.keepsFile`).  If one file is only written, and another is only read, less is asked of the
system (`System.WritesBeside`), and a desk does so for all paths that never lead to the same place
(`Desk.writesBeside`).
-/

namespace ButtonStyle

variable {σ : Type}

namespace System

/-- What a path leads to: nothing, or something and what reading it gives. -/
def content? (system : System σ) (p : Path) (s : σ) : Option (Except FileFault ByteArray) :=
  if system.holds p s then some (system.read p s) else none

/-- A system keeps the file of a path: making the directories around it leaves it alone, and so does
writing it when this fails, and otherwise it holds what was written. -/
structure KeepsFile (system : System σ) (p : Path) : Prop where
  makeParents : ∀ s, system.content? p (system.makeParents p s).2 = system.content? p s
  write_error : ∀ s content why, (system.write p content s).1 = .error why →
    system.content? p (system.write p content s).2 = system.content? p s
  write_ok : ∀ s content, (system.write p content s).1 = .ok () →
    system.content? p (system.write p content s).2 = some (.ok content)

/-- A system writes the file of `p` beside that of `f`: the one holds what was written, and the other
is read as before. -/
structure WritesBeside (system : System σ) (p f : Path) : Prop where
  written : ∀ s content, (system.write p content s).1 = .ok () →
    system.content? p (system.write p content s).2 = some (.ok content)
  makeParents : ∀ s content, system.read f s = .ok content →
    system.read f (system.makeParents p s).2 = .ok content
  write : ∀ s content new, system.read f s = .ok content → (system.write p new s).1 = .ok () →
    system.read f (system.write p new s).2 = .ok content

end System

/-! ### Desks -/

namespace Desk

/-- A desk with one file in its working directory. -/
def holding (name : String) (content : ByteArray) : Desk where
  disk := ⟨.directory [(name, .file content false)]⟩

theorem content?_eq (p : Path) (d : Desk) : Desk.system.content? p d =
    if d.disk.holds p then some (d.disk.read p) else none := rfl

theorem makeParents_eq (p : Path) (d : Desk) : Desk.system.makeParents p d =
    ((d.disk.makeParents p).1, { d with disk := (d.disk.makeParents p).2 }) := rfl

theorem write_eq (p : Path) (content : ByteArray) (d : Desk) :
    Desk.system.write p content d =
      match d.disk.write p content with
      | .ok disk => (.ok (), { d with disk })
      | .error why => (.error why, d) := rfl

theorem content?_of_sameAt {p : Path} {d d' : Desk} (h : d.disk.SameAt p d'.disk) :
    Desk.system.content? p d' = Desk.system.content? p d := by
  rw [content?_eq, content?_eq]
  rcases h with heq | ⟨hd, hd'⟩
  · rw [heq]
  · rw [hd, hd']
    rfl

/-- A file that has been written holds what was written. -/
theorem content?_of_write_ok {p : Path} {d : Desk} {content : ByteArray}
    (h : (Desk.system.write p content d).1 = .ok ()) :
    Desk.system.content? p (Desk.system.write p content d).2 = some (.ok content) := by
  rw [write_eq] at h ⊢
  cases hwrite : d.disk.write p content with
  | ok disk =>
    obtain ⟨hholds, hread⟩ := Disk.read_of_write hwrite
    simp only [content?_eq, hholds, if_true, hread]
  | error why =>
    rw [hwrite] at h
    cases h

/-- **A desk keeps the file of every path that goes nowhere up.** -/
theorem keepsFile {p : Path} (hp : .up ∉ p.steps) : Desk.system.KeepsFile p where
  makeParents d := content?_of_sameAt (Disk.sameAt_makeParents hp d.disk)
  write_error d content why h := by
    rw [write_eq] at h ⊢
    cases hwrite : d.disk.write p content with
    | ok disk =>
      rw [hwrite] at h
      cases h
    | error why => rfl
  write_ok d content h := content?_of_write_ok h

/-- **A desk writes files beside each other if their paths never lead to the same place.** -/
theorem writesBeside {p f : Path} (h : p.Apart f) : Desk.system.WritesBeside p f where
  written d content hwrite := content?_of_write_ok hwrite
  makeParents d content hread := Disk.read_makeParents hread p
  write d content new hread hwrite := by
    rw [write_eq] at hwrite ⊢
    cases hdisk : d.disk.write p new with
    | ok disk => exact Disk.read_of_write_apart h hread hdisk
    | error why =>
      rw [hdisk] at hwrite
      cases hwrite

/-- A path of one name leads to the file of that name. -/
theorem content?_holding {p : Path} {name : String} (hp : p.steps = [.name name])
    (hcheck : Disk.check p = .ok ()) (hslash : p.endsInSlash = false)
    (hname : Node.tooLong name = false) (content : ByteArray) :
    Desk.system.content? p (holding name content) = some (.ok content) := by
  have hlocate : (holding name content).disk.locate p =
      .ok (.taken [name] (.file content false)) := by
    simp [holding, Disk.locate, hcheck, hslash, hp, Disk.follow, Node.find?, hname, bind,
      Except.bind]
  rw [content?_eq, Disk.holds, Disk.read, hlocate]
  rfl

/-- A file of presets in the working directory. -/
def presetsPath : Path := ⟨"presets.json"⟩

/-- A desk with a file of presets. -/
def withPresets (content : ByteArray) : Desk := holding "presets.json" content

theorem content?_withPresets (content : ByteArray) :
    Desk.system.content? presetsPath (withPresets content) = some (.ok content) :=
  content?_holding (by decide) (by decide) (by decide) (by decide) content

theorem makeParents_withPresets (content : ByteArray) :
    Desk.system.makeParents presetsPath (withPresets content) = (.ok (), withPresets content) := by
  have hparents : presetsPath.parentSteps = [] := by decide
  have hdisk : (withPresets content).disk.makeParents presetsPath =
      (.ok (), (withPresets content).disk) := by
    rw [Disk.makeParents, hparents]
    rfl
  rw [makeParents_eq, hdisk]

theorem write_withPresets (content new : ByteArray) :
    Desk.system.write presetsPath new (withPresets content) = (.ok (), withPresets new) := by
  have hcheck : Disk.check presetsPath = .ok () := by decide
  have hslash : presetsPath.endsInSlash = false := by decide
  have hsteps : presetsPath.steps = [.name "presets.json"] := by decide
  have hname : Node.tooLong "presets.json" = false := by decide
  rw [write_eq, Disk.write, hcheck, hslash, hsteps]
  simp [withPresets, holding, Disk.follow, Node.find?, hname, Node.put, Node.putEntry, bind,
    Except.bind]

theorem keepsFile_presetsPath : Desk.system.KeepsFile presetsPath := keepsFile (by decide)

end Desk

end ButtonStyle
