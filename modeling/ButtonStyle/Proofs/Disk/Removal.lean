import ButtonStyle.Proofs.Disk.Files

/-!
# Removing a file or directory

When something has been removed, nothing is found any more at its place or in it
(`find?_remove_of_isPrefix`), and everything else is found as before, although a directory around
the place has lost something (`find?_remove`).  What is put neither there nor around it may be put
before or after (`remove_put`).
-/

namespace ButtonStyle

namespace Node

/-! ### What is left of a directory -/

theorem lookup_filter_ne (name : String) (entries : List (String × Node)) (k : String) :
    (entries.filter fun e => e.1 ≠ name).lookup k =
      if k = name then none else entries.lookup k := by
  induction entries with
  | nil => simp
  | cons entry entries ih =>
    obtain ⟨key, node⟩ := entry
    rw [List.lookup_cons]
    by_cases hkey : key = name
    · subst hkey
      rw [List.filter_cons_of_neg (by simp), ih]
      by_cases hk : k = key
      · simp [hk]
      · simp [hk, beq_eq_false_iff_ne.2 hk]
    · rw [List.filter_cons_of_pos (by simp [hkey]), List.lookup_cons, ih]
      by_cases hk : k = key
      · simp [hk, hkey]
      · simp [beq_eq_false_iff_ne.2 hk]

theorem lookup_map_of_name (name : String) (f : Node → Node) (entries : List (String × Node))
    (k : String) :
    (entries.map fun (key, node) => if key = name then (key, f node) else (key, node)).lookup k =
      if k = name then (entries.lookup k).map f else entries.lookup k := by
  induction entries with
  | nil => simp
  | cons entry entries ih =>
    obtain ⟨key, node⟩ := entry
    rw [List.map_cons, List.lookup_cons]
    by_cases hkey : key = name
    · subst hkey
      rw [if_pos rfl, List.lookup_cons, ih]
      by_cases hk : k = key
      · simp [hk]
      · simp [hk, beq_eq_false_iff_ne.2 hk]
    · rw [if_neg hkey, List.lookup_cons, ih]
      by_cases hk : k = key
      · simp [hk, hkey]
      · simp [beq_eq_false_iff_ne.2 hk]

theorem remove_below (name n : String) (names : List String) (entries : List (String × Node)) :
    remove (name :: n :: names) (directory entries) = directory (entries.map fun (key, node) =>
      if key = name then (key, remove (n :: names) node) else (key, node)) := rfl

/-- What is left of a directory from which something has been removed. -/
theorem exists_entries_of_remove (name : String) (names : List String)
    (entries : List (String × Node)) : ∃ left,
      remove (name :: names) (directory entries) = directory left ∧
      ∀ k, left.lookup k =
        if k = name then if names = [] then none else (entries.lookup k).map (remove names)
        else entries.lookup k := by
  cases names with
  | nil =>
    refine ⟨_, rfl, fun k => ?_⟩
    rw [if_pos rfl]
    exact lookup_filter_ne name entries k
  | cons m names =>
    refine ⟨_, rfl, fun k => ?_⟩
    rw [if_neg (List.cons_ne_nil m names)]
    exact lookup_map_of_name name _ entries k

theorem remove_file (place : List String) (content : ByteArray) (executable : Bool) :
    remove place (file content executable) = file content executable := by
  match place with
  | [] | [_] | _ :: _ :: _ => rfl

/-! ### What is found -/

/-- Two nodes are the same file, or both directories. -/
inductive Alike : Node → Node → Prop
  | file (content : ByteArray) (executable : Bool) :
      Alike (.file content executable) (.file content executable)
  | directory (entries left : List (String × Node)) : Alike (.directory entries) (.directory left)

theorem Alike.refl (node : Node) : Alike node node := by
  cases node with
  | file content executable => exact .file content executable
  | directory entries => exact .directory entries entries

theorem alike_remove (node : Node) (place : List String) : Alike node (node.remove place) := by
  cases node with
  | file content executable =>
    rw [remove_file]
    exact .file content executable
  | directory entries =>
    cases place with
    | nil => exact .directory entries entries
    | cons name names =>
      obtain ⟨left, hleft, -⟩ := exists_entries_of_remove name names entries
      rw [hleft]
      exact .directory entries left

/-- Nothing is found any more where something has been removed. -/
theorem find?_remove_of_isPrefix {node : Node} {place names : List String} (hplace : place ≠ [])
    (h : place <+: names) : (node.remove place).find? names = none := by
  induction place generalizing node names with
  | nil => exact absurd rfl hplace
  | cons name place ih =>
    obtain ⟨more, rfl⟩ := h
    cases node with
    | file content executable =>
      rw [remove_file]
      rfl
    | directory entries =>
      obtain ⟨left, hleft, hlookup⟩ := exists_entries_of_remove name place entries
      rw [hleft, List.cons_append, find?, hlookup, if_pos rfl]
      split_ifs with hempty
      · rfl
      · cases entries.lookup name with
        | none => rfl
        | some child => exact ih hempty (List.prefix_append place more)

/-- **Everything else is found as before**, although something may be missing in it. -/
theorem find?_remove {node : Node} {place names : List String} (h : ¬ place <+: names) :
    Option.Rel Alike (node.find? names) ((node.remove place).find? names) := by
  induction names generalizing node place with
  | nil => exact .some (alike_remove node place)
  | cons m names ih =>
    cases node with
    | file content executable =>
      rw [remove_file]
      exact .none
    | directory entries =>
      cases place with
      | nil => exact absurd (List.nil_prefix) h
      | cons name place =>
        obtain ⟨left, hleft, hlookup⟩ := exists_entries_of_remove name place entries
        rw [hleft, find?, find?, hlookup]
        by_cases hm : m = name
        · subst hm
          have hmore : ¬ place <+: names := fun hp => h (List.cons_prefix_cons.2 ⟨rfl, hp⟩)
          have hne : place ≠ [] := fun hnil => hmore (hnil ▸ List.nil_prefix)
          rw [if_pos rfl, if_neg hne]
          cases entries.lookup m with
          | none => exact .none
          | some child => exact ih hmore
        · rw [if_neg hm]
          cases entries.lookup m with
          | none => exact .none
          | some child =>
            show Option.Rel Alike (child.find? names) (child.find? names)
            cases child.find? names with
            | none => exact .none
            | some found => exact .some (.refl found)

/-! ### What is put elsewhere -/

theorem remove_empty (place : List String) : remove place (directory []) = directory [] := by
  match place with
  | [] | [_] | _ :: _ :: _ => rfl

theorem filter_putEntry {name m : String} (h : m ≠ name) (new : Node)
    (entries : List (String × Node)) :
    (putEntry m new entries).filter (fun e => e.1 ≠ name) =
      putEntry m new (entries.filter fun e => e.1 ≠ name) := by
  induction entries with
  | nil => simp [putEntry, h]
  | cons entry entries ih =>
    obtain ⟨key, old⟩ := entry
    by_cases hkey : key = m
    · subst hkey
      simp [putEntry, h]
    · by_cases hname : key = name
      · subst hname
        simpa [putEntry, hkey] using ih
      · simpa [putEntry, hkey, hname] using ih

theorem map_putEntry (name m : String) (f : Node → Node) (new : Node)
    (entries : List (String × Node)) :
    (putEntry m new entries).map
        (fun (key, node) => if key = name then (key, f node) else (key, node)) =
      putEntry m (if m = name then f new else new)
        (entries.map fun (key, node) => if key = name then (key, f node) else (key, node)) := by
  induction entries with
  | nil =>
    simp only [putEntry, List.map_cons, List.map_nil]
    split_ifs <;> rfl
  | cons entry entries ih =>
    obtain ⟨key, old⟩ := entry
    by_cases hkey : key = m
    · subst hkey
      by_cases hname : key = name <;> simp [putEntry, hname]
    · by_cases hname : key = name
      · subst hname
        simpa [putEntry, hkey] using ih
      · simpa [putEntry, hkey, hname] using ih

/-- **It is of no importance whether something is removed first, or something else is put elsewhere
first.** -/
theorem remove_put {node new : Node} {place target : List String} (h : ¬ place <+: target)
    (h' : ¬ target <+: place) :
    (node.put target new).remove place = (node.remove place).put target new := by
  induction target generalizing node place with
  | nil => exact absurd List.nil_prefix h'
  | cons m target ih =>
    cases node with
    | file content executable => rw [remove_file, put, remove_file]
    | directory entries =>
      cases place with
      | nil => exact absurd List.nil_prefix h
      | cons name more =>
        cases more with
        | nil =>
          have hm : m ≠ name := by
            rintro rfl
            exact h (List.prefix_append [m] target)
          rw [put, remove, remove, put, filter_putEntry hm, lookup_filter_ne, if_neg hm]
        | cons n place =>
          rw [put, remove_below, remove_below, put, map_putEntry, lookup_map_of_name]
          by_cases hm : m = name
          · subst hm
            have hmore : ¬ n :: place <+: target := fun hp =>
              h (List.cons_prefix_cons.2 ⟨rfl, hp⟩)
            have hmore' : ¬ target <+: n :: place := fun hp =>
              h' (List.cons_prefix_cons.2 ⟨rfl, hp⟩)
            rw [if_pos rfl, if_pos rfl, ih hmore hmore']
            cases entries.lookup m with
            | none => rw [Option.map_none, Option.getD_none, remove_empty]
            | some child => rfl
          · rw [if_neg hm, if_neg hm]

end Node

end ButtonStyle
