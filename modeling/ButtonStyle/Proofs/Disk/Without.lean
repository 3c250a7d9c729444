import ButtonStyle.Proofs.Disk.Removal

/-!
# Disks without a file or directory

Steps lead to or through a place if some of the first of them lead there (`PassesThrough`).  **All
others end as they do on the disk without what stands at that place** (`follow_without`), and so it
is of no importance for what is looked for, read or written by way of them (`holds_without`,
`read_without`, `write_without`).

This is applied to one of two entries of a directory: if the directory is there without the one,
then the way to the other does not lead through it (`not_passesThrough_of_kept`).
-/

namespace ButtonStyle

/-! ### Paths below a directory -/

namespace Path

/-- The steps to something in a directory are those to the directory, and one more. -/
theorem steps_join (p : Path) {name : String} (hslash : '/' ∉ name.toList)
    (hstep : Step.ofString? name = some (.name name)) :
    (p.join name).steps = p.steps ++ [.name name] := by
  have hname : name.toList.splitOn '/' = [name.toList] := List.splitOn_eq_singleton hslash
  have hnone : Step.ofString? (String.ofList []) = none := by decide
  rw [join, steps, steps]
  split_ifs with h
  · rw [String.toList_append]
    rcases Bool.or_eq_true_iff.1 h with hempty | hend
    · rw [String.isEmpty_iff] at hempty
      simp [hempty, hname, hnone, hstep]
    · rw [endsInSlash, beq_iff_eq] at hend
      obtain ⟨before, hbefore⟩ := List.getLast?_eq_some_iff.1 hend
      rw [hbefore, List.append_assoc, List.singleton_append, List.splitOn_append_cons_self,
        List.splitOn_append_cons_self, hname, List.splitOn_nil]
      simp [hnone, hstep]
  · have hmark : ("/" : String).toList = ['/'] := by decide
    rw [String.toList_append, String.toList_append, hmark, List.append_assoc,
      List.singleton_append, List.splitOn_append_cons_self, hname]
    simp [hstep]

/-- The directory in which something ends that is in a directory is this. -/
theorem parentSteps_join (p : Path) {name : String} (hslash : '/' ∉ name.toList)
    (hstep : Step.ofString? name = some (.name name)) :
    (p.join name).parentSteps = p.steps.filter (· ≠ .here) := by
  rw [parentSteps, steps_join p hslash hstep, List.filter_append,
    List.filter_cons_of_pos (by simp), List.filter_nil, List.dropLast_concat]

end Path

namespace Disk

/-! ### Walks in two parts -/

section Step

variable {d : Disk} {names : List String} {entries : List (String × Node)}
  (h : d.root.find? names = some (.directory entries)) (steps : List Path.Step)
include h

theorem follow_here : d.follow names (.here :: steps) = d.follow names steps := by
  rw [follow, h]

theorem follow_up : d.follow names (.up :: steps) = d.follow names.dropLast steps := by
  rw [follow, h]

theorem follow_name {name : String} (hlong : Node.tooLong name = false)
    (hname : (entries.lookup name).isSome) :
    d.follow names (.name name :: steps) = d.follow (names ++ [name]) steps := by
  obtain ⟨child, hchild⟩ := Option.isSome_iff_exists.1 hname
  rw [follow, h]
  simp only [hlong, hchild]
  rfl

theorem follow_missing {name : String} (hlong : Node.tooLong name = false)
    (hname : entries.lookup name = none) : d.follow names (.name name :: steps) =
      if steps.isEmpty then .ok (.free (names ++ [name])) else .error .notFound := by
  rw [follow, h]
  simp only [hlong, hname]
  rfl

theorem follow_tooLong {name : String} (hlong : Node.tooLong name = true) :
    d.follow names (.name name :: steps) = .error .nameTooLong := by
  rw [follow, h]
  simp only [hlong]
  rfl

end Step

/-- To go to a name is to go to a directory first, and to the name there. -/
theorem follow_concat {d : Disk} {names : List String} {steps : List Path.Step} {name : String}
    {place : Place} (h : d.follow names (steps ++ [.name name]) = .ok place) :
    ∃ around entries, d.follow names steps = .ok (.taken around (.directory entries)) ∧
      place.names = around ++ [name] := by
  induction steps generalizing names with
  | nil =>
    obtain ⟨entries, hentries, ⟨hstep, -⟩ | ⟨hstep, -⟩ |
      ⟨name', hstep, -, ⟨-, hrest⟩ | ⟨-, -, rfl⟩⟩⟩ := follow_cons h
    · cases hstep
    · cases hstep
    · cases hstep
      obtain ⟨node, -, rfl⟩ := follow_nil hrest
      exact ⟨names, entries, by rw [follow, hentries], rfl⟩
    · cases hstep
      exact ⟨names, entries, by rw [follow, hentries], rfl⟩
  | cons step steps ih =>
    rw [List.cons_append] at h
    obtain ⟨entries, hentries, ⟨rfl, hrest⟩ | ⟨rfl, hrest⟩ |
      ⟨name', rfl, hlong, ⟨hname, hrest⟩ | ⟨-, hnil, -⟩⟩⟩ := follow_cons h
    · rw [follow_here hentries]
      exact ih hrest
    · rw [follow_up hentries]
      exact ih hrest
    · rw [follow_name hentries _ hlong hname]
      exact ih hrest
    · simp at hnil

/-- Steps that stay where they are may be left out. -/
theorem follow_filter {d : Disk} {names : List String} {steps : List Path.Step} {place : Place}
    (h : d.follow names steps = .ok place) :
    d.follow names (steps.filter (· ≠ .here)) = .ok place := by
  induction steps generalizing names with
  | nil => exact h
  | cons step steps ih =>
    obtain ⟨entries, hentries, ⟨rfl, hrest⟩ | ⟨rfl, hrest⟩ |
      ⟨name, rfl, hlong, ⟨hname, hrest⟩ | ⟨-, rfl, -⟩⟩⟩ := follow_cons h
    · rw [List.filter_cons_of_neg (by simp)]
      exact ih hrest
    · rw [List.filter_cons_of_pos (by simp), follow_up hentries]
      exact ih hrest
    · rw [List.filter_cons_of_pos (by simp), follow_name hentries _ hlong hname]
      exact ih hrest
    · exact h

/-! ### Walks past what is missing -/

/-- A disk without what stands at a place. -/
def without (d : Disk) (place : List String) : Disk := ⟨d.root.remove place⟩

theorem remove?_of_locate {d : Disk} {p : Path} {place : List String} {node : Node}
    (h : d.locate p = .ok (.taken place node)) : d.remove? p = some (d.without place) := by
  rw [remove?, h]
  rfl

/-- Steps lead to or through a place. -/
def PassesThrough (d : Disk) (steps : List Path.Step) (place : List String) : Prop :=
  ∃ before node, before <+: steps ∧ d.follow [] before = .ok (.taken place node)

/-- Two walks end at the same place, or fail for the same reason. -/
inductive SameEnd : Except FileFault Place → Except FileFault Place → Prop
  | error (why : FileFault) : SameEnd (.error why) (.error why)
  | taken (names : List String) {node left : Node} : node.Alike left →
      SameEnd (.ok (.taken names node)) (.ok (.taken names left))
  | free (names : List String) : SameEnd (.ok (.free names)) (.ok (.free names))

section Without

variable {d : Disk} {place names : List String}

theorem lookup_eq_find? {entries : List (String × Node)}
    (h : d.root.find? names = some (.directory entries)) (name : String) :
    entries.lookup name = d.root.find? (names ++ [name]) := by
  rw [Node.find?_append, h]
  simp [Node.find?]

theorem find?_without_cases (h : ¬ place <+: names) :
    (d.root.find? names = none ∧ (d.without place).root.find? names = none) ∨
    ∃ node left, d.root.find? names = some node ∧ (d.without place).root.find? names = some left ∧
      node.Alike left := by
  have hrel : Option.Rel Node.Alike (d.root.find? names) ((d.root.remove place).find? names) :=
    Node.find?_remove h
  rw [without]
  revert hrel
  cases d.root.find? names <;> cases (d.root.remove place).find? names <;> intro hrel
  · exact .inl ⟨rfl, rfl⟩
  · cases hrel
  · cases hrel
  · cases hrel with
    | some halike => exact .inr ⟨_, _, rfl, rfl, halike⟩

variable (hplace : place ≠ [])
include hplace

theorem find?_without_of_isPrefix (h : place <+: names) :
    (d.without place).root.find? names = none :=
  Node.find?_remove_of_isPrefix hplace h

/-- Where a directory is with and without what stands at a place, and a name in it is not that
place, walks by way of the name both stop there, or both go on from there. -/
theorem follow_name_without {entries entries' : List (String × Node)}
    (hnode : d.root.find? names = some (.directory entries))
    (hleft : (d.without place).root.find? names = some (.directory entries'))
    (hnames : ¬ place <+: names) (name : String)
    (h : ∀ node, d.follow names [.name name] ≠ .ok (.taken place node)) :
    (∀ steps, SameEnd (d.follow names (.name name :: steps))
      ((d.without place).follow names (.name name :: steps))) ∨
    (¬ place <+: names ++ [name] ∧ ∀ steps,
      d.follow names (.name name :: steps) = d.follow (names ++ [name]) steps ∧
      (d.without place).follow names (.name name :: steps) =
        (d.without place).follow (names ++ [name]) steps) := by
  cases hlong : Node.tooLong name with
  | true =>
    refine .inl fun steps => ?_
    rw [follow_tooLong hnode _ hlong, follow_tooLong hleft _ hlong]
    exact .error _
  | false =>
    have hname := lookup_eq_find? hnode name
    have hname' := lookup_eq_find? hleft name
    have hmissing (hnone : entries.lookup name = none) (hnone' : entries'.lookup name = none)
        (steps : List Path.Step) : SameEnd (d.follow names (.name name :: steps))
          ((d.without place).follow names (.name name :: steps)) := by
      rw [follow_missing hnode _ hlong hnone, follow_missing hleft _ hlong hnone']
      split_ifs
      · exact .free _
      · exact .error _
    by_cases hfront : place <+: names ++ [name]
    · -- the name is that of the place itself, and so nothing has been there
      have heq : place = names ++ [name] := (List.prefix_concat_iff.1 hfront).resolve_right hnames
      rw [find?_without_of_isPrefix hplace hfront] at hname'
      refine .inl (hmissing (Option.eq_none_iff_forall_ne_some.2 fun child hchild => ?_) hname')
      refine h child ?_
      rw [follow_name hnode _ hlong (Option.isSome_of_eq_some hchild), follow, ← hname, hchild, heq]
    · rcases find?_without_cases (d := d) hfront with
        ⟨hnone, hnone'⟩ | ⟨child, child', hchild, hchild', -⟩
      · exact .inl (hmissing (hname.trans hnone) (hname'.trans hnone'))
      · have hsome := Option.isSome_of_eq_some (hname.trans hchild)
        have hsome' := Option.isSome_of_eq_some (hname'.trans hchild')
        exact .inr ⟨hfront, fun steps =>
          ⟨follow_name hnode _ hlong hsome, follow_name hleft _ hlong hsome'⟩⟩

/-- **Steps that do not lead to or through a place end as they did before.** -/
theorem follow_without {steps : List Path.Step} (hnames : ¬ place <+: names)
    (h : ∀ before node, before <+: steps → d.follow names before ≠ .ok (.taken place node)) :
    SameEnd (d.follow names steps) ((d.without place).follow names steps) := by
  induction steps generalizing names with
  | nil =>
    rw [follow, follow]
    rcases find?_without_cases (d := d) hnames with
      ⟨hnone, hnone'⟩ | ⟨node, left, hnode, hleft, halike⟩
    · rw [hnone, hnone']
      exact .error _
    · rw [hnode, hleft]
      exact .taken names halike
  | cons step steps ih =>
    have hcons {before : List Path.Step} (hbefore : before <+: steps) :
        step :: before <+: step :: steps := List.cons_prefix_cons.2 ⟨rfl, hbefore⟩
    rcases find?_without_cases (d := d) hnames with
      ⟨hnone, hnone'⟩ | ⟨node, left, hnode, hleft, ⟨⟩ | ⟨entries, entries'⟩⟩
    · rw [follow, follow, hnone, hnone']
      exact .error _
    · rw [follow, follow, hnode, hleft]
      exact .error _
    · cases step with
      | here =>
        rw [follow_here hnode, follow_here hleft]
        refine ih hnames fun before node hbefore => ?_
        rw [← follow_here hnode]
        exact h _ node (hcons hbefore)
      | up =>
        have hdrop : ¬ place <+: names.dropLast := fun hp =>
          hnames (hp.trans (List.dropLast_prefix names))
        rw [follow_up hnode, follow_up hleft]
        refine ih hdrop fun before node hbefore => ?_
        rw [← follow_up hnode]
        exact h _ node (hcons hbefore)
      | name name =>
        rcases follow_name_without hplace hnode hleft hnames name
          fun node => h [.name name] node (List.prefix_append [_] steps) with hstop | ⟨hfront, hon⟩
        · exact hstop steps
        · rw [(hon steps).1, (hon steps).2]
          refine ih hfront fun before node hbefore => ?_
          rw [← (hon before).1]
          exact h _ node (hcons hbefore)

/-- **Steps that lead somewhere on the disk without a place do not lead through it.** -/
theorem not_passes_of_follow_without {target : List String} {steps : List Path.Step} {left : Node}
    (h : (d.without place).follow names steps = .ok (.taken target left)) {before : List Path.Step}
    (hbefore : before <+: steps) (node : Node) :
    d.follow names before ≠ .ok (.taken place node) := by
  have hthere {names : List String} {left : Node}
      (h : (d.without place).root.find? names = some left) : names ≠ place := by
    rintro rfl
    rw [find?_without_of_isPrefix hplace List.prefix_rfl] at h
    cases h
  intro hfollow
  induction steps generalizing names before with
  | nil =>
    obtain ⟨left, hleft, -⟩ := follow_nil h
    rw [List.prefix_nil.1 hbefore] at hfollow
    obtain ⟨node, -, heq⟩ := follow_nil hfollow
    cases heq
    exact hthere hleft rfl
  | cons step steps ih =>
    obtain ⟨entries', hentries', hcases'⟩ := follow_cons h
    cases before with
    | nil =>
      obtain ⟨node, -, heq⟩ := follow_nil hfollow
      cases heq
      exact hthere hentries' rfl
    | cons step' before =>
      obtain ⟨rfl, hmore⟩ := List.cons_prefix_cons.1 hbefore
      obtain ⟨entries, hentries, hcases⟩ := follow_cons hfollow
      rcases hcases' with ⟨rfl, hrest'⟩ | ⟨rfl, hrest'⟩ |
        ⟨name, rfl, -, ⟨-, hrest'⟩ | ⟨-, -, heq⟩⟩
      · rw [follow_here hentries] at hfollow
        exact ih hrest' hmore hfollow
      · rw [follow_up hentries] at hfollow
        exact ih hrest' hmore hfollow
      · rcases hcases with ⟨hstep, -⟩ | ⟨hstep, -⟩ | ⟨name', hstep, -, ⟨-, hrest⟩ | ⟨-, -, heq⟩⟩
        · cases hstep
        · cases hstep
        · cases hstep
          exact ih hrest' hmore hrest
        · cases heq
      · cases heq

/-! ### Looking and writing elsewhere -/

section Elsewhere

variable {p : Path} (hpasses : ¬ d.PassesThrough p.steps place)
include hpasses

/-- The steps to a path, or some of the first of them, end as they did before. -/
theorem sameEnd_of_isPrefix {steps : List Path.Step} (hsteps : steps <+: p.steps) :
    SameEnd (d.follow [] steps) ((d.without place).follow [] steps) := by
  refine follow_without hplace (fun h => hplace (List.prefix_nil.1 h)) ?_
  exact fun before node hbefore h => hpasses ⟨before, node, hbefore.trans hsteps, h⟩

theorem locate_without : SameEnd (d.locate p) ((d.without place).locate p) := by
  have hend := sameEnd_of_isPrefix hplace hpasses List.prefix_rfl
  rw [locate, locate]
  revert hend
  generalize d.follow [] p.steps = there, (d.without place).follow [] p.steps = there'
  intro hend
  cases check p with
  | error why => exact .error why
  | ok =>
    cases hend with
    | error why => exact .error why
    | free names => exact .free names
    | taken names halike =>
      cases halike with
      | directory entries left => exact .taken names (.directory entries left)
      | file content executable =>
        cases p.endsInSlash with
        | true => exact .error _
        | false => exact .taken names (.file content executable)

/-- Whether there is something elsewhere is as before. -/
theorem holds_without : (d.without place).holds p = d.holds p := by
  have hend := locate_without hplace hpasses
  rw [holds, holds]
  revert hend
  generalize d.locate p = there, (d.without place).locate p = there'
  rintro (why | ⟨names, halike⟩ | names) <;> rfl

/-- What is read elsewhere is as before. -/
theorem read_without : (d.without place).read p = d.read p := by
  have hend := locate_without hplace hpasses
  rw [read, read]
  revert hend
  generalize d.locate p = there, (d.without place).locate p = there'
  rintro (why | ⟨names, halike⟩ | names)
  · rfl
  · cases halike <;> rfl
  · rfl

theorem writeToDirectoryFault_without :
    (d.without place).writeToDirectoryFault p = d.writeToDirectoryFault p := by
  have hend := sameEnd_of_isPrefix hplace hpasses (List.dropLast_prefix p.steps)
  rw [writeToDirectoryFault, writeToDirectoryFault]
  revert hend
  generalize d.follow [] p.steps.dropLast = there,
    (d.without place).follow [] p.steps.dropLast = there'
  rintro (why | ⟨names, halike⟩ | names)
  · rfl
  · cases halike <;> rfl
  · rfl

/-- **It is of no importance whether something is removed before a file is written elsewhere or
after.** -/
theorem write_without (hapart : ∀ target, d.follow [] p.steps = .ok target →
      ¬ place <+: target.names ∧ ¬ target.names <+: place) (content : ByteArray) :
    (d.without place).write p content = (d.write p content).map (·.without place) := by
  have hput {names : List String} (hnames : ¬ place <+: names ∧ ¬ names <+: place) (new : Node) :
      (⟨(d.without place).root.put names new⟩ : Disk) =
        (⟨d.root.put names new⟩ : Disk).without place := by
    rw [without, without, Node.remove_put hnames.1 hnames.2]
  have hend := sameEnd_of_isPrefix hplace hpasses List.prefix_rfl
  rw [write, write, writeToDirectoryFault_without hplace hpasses]
  cases check p with
  | error why => rfl
  | ok =>
    cases p.endsInSlash with
    | true => rfl
    | false =>
      revert hend hapart
      generalize d.follow [] p.steps = there, (d.without place).follow [] p.steps = there'
      rintro hapart (why | ⟨names, halike⟩ | names)
      · rfl
      · cases halike with
        | directory => rfl
        | file content' executable => exact congrArg Except.ok (hput (hapart _ rfl) _)
      · exact congrArg Except.ok (hput (hapart _ rfl) _)

end Elsewhere

end Without

/-! ### Two entries of a directory -/

theorem makeDirectories_of_isDirectory {d : Disk} {steps : List Path.Step}
    (h : d.isDirectory steps.reverse = true) : d.makeDirectories steps = (.ok (), d) := by
  cases steps with
  | nil => rfl
  | cons last before =>
    have hthere : d.makeDirectoryIfMissing (last :: before).reverse = .ok d := by
      have hexists : d.makeDirectory (last :: before).reverse = .error .alreadyExists := by
        rw [isDirectory] at h
        rw [makeDirectory]
        split at h
        · rename_i hfollow
          rw [hfollow]
        · cases h
      rw [makeDirectoryIfMissing, hexists]
      exact if_pos h
    rw [makeDirectories, hthere]

/-- **Where the directory around a path is there, nothing is made**, with the same result whatever
else there is. -/
theorem exists_makeParents_eq {d d' : Disk} {p : Path} (h : d.isDirectory p.parentSteps = true)
    (h' : d'.isDirectory p.parentSteps = true) :
    ∃ made, d.makeParents p = (made, d) ∧ d'.makeParents p = (made, d') := by
  rw [makeParents, makeParents]
  split_ifs
  · exact ⟨_, rfl, rfl⟩
  · rw [← List.reverse_reverse p.parentSteps] at h h'
    exact ⟨_, makeDirectories_of_isDirectory h, makeDirectories_of_isDirectory h'⟩

section Entries

variable {d : Disk} {before : List Path.Step} {name other : String} (hne : other ≠ name)
  {place : List String} {node : Node}
  (hplace : d.follow [] (before ++ [.name name]) = .ok (.taken place node))
  (hkept : (d.without place).isDirectory (before.filter (· ≠ .here)) = true)
include hplace

/-- Where an entry of a directory leads. -/
theorem exists_around_of_follow : ∃ around entries, place = around ++ [name] ∧
    d.follow [] before = .ok (.taken around (.directory entries)) := by
  obtain ⟨around, entries, haround, hnames⟩ := follow_concat hplace
  exact ⟨around, entries, hnames, haround⟩

theorem ne_nil_of_follow_concat : place ≠ [] := by
  obtain ⟨around, entries, rfl, -⟩ := exists_around_of_follow hplace
  simp

theorem isDirectory_of_follow_concat : d.isDirectory (before.filter (· ≠ .here)) = true := by
  obtain ⟨around, entries, -, haround⟩ := exists_around_of_follow hplace
  rw [isDirectory, follow_filter haround]

/-- **An entry that has been removed is not there.** -/
theorem holds_without_eq_false {p : Path} (hp : p.steps = before ++ [.name name]) :
    (d.without place).holds p = false := by
  have hne := ne_nil_of_follow_concat hplace
  rw [holds]
  split
  · rename_i names left hlocate
    have hfollow := follow_of_locate hlocate
    rw [hp] at hfollow
    exact absurd hplace (not_passes_of_follow_without hne hfollow List.prefix_rfl node)
  · rfl

include hne

/-- No other entry leads to the same place, or to one in it or around it. -/
theorem apart_of_follow_concat {target : Place}
    (h : d.follow [] (before ++ [.name other]) = .ok target) :
    ¬ place <+: target.names ∧ ¬ target.names <+: place := by
  obtain ⟨around, entries, rfl, haround⟩ := exists_around_of_follow hplace
  obtain ⟨around', entries', haround', hnames⟩ := follow_concat h
  rw [haround] at haround'
  cases haround'
  rw [hnames]
  have hlength : (around ++ [name]).length = (around ++ [other]).length := by simp
  constructor
  · intro hfront
    have heq := hfront.eq_of_length hlength
    simp [hne.symm] at heq
  · intro hfront
    have heq := hfront.eq_of_length hlength.symm
    simp [hne] at heq

include hkept

/-- **The way to another entry does not lead through one**, if the directory is there without it. -/
theorem not_passesThrough_of_kept : ¬ d.PassesThrough (before ++ [.name other]) place := by
  have hempty := ne_nil_of_follow_concat hplace
  rintro ⟨steps, node', hsteps, hfollow⟩
  rcases List.prefix_concat_iff.1 hsteps with rfl | hsteps
  · exact (apart_of_follow_concat hne hplace hfollow).1 List.prefix_rfl
  · rw [isDirectory] at hkept
    split at hkept
    · rename_i target entries hdirectory
      refine not_passes_of_follow_without hempty hdirectory ?_ node' (follow_filter hfollow)
      exact hsteps.filter _
    · cases hkept

end Entries

end Disk

end ButtonStyle
