import Mathlib.Data.List.Basic
import ButtonStyle.Proofs.Css.Composition

/-!
# Reading stylesheets

A reader that goes through a stylesheet line by line.  A rule is a line with a comment, if there is
one, a line with the selectors, a line for each declaration and a line with the closing brace, and
one blank line comes after it.  The reader takes as many rules as there are, and gives back the text
after them.

Main statement: **the reader finds in a sheet just the rules that were written**
(`readSheet_sheet`), if no text in them would end a line or, in a selector or a property, a part of
a line (`IsLegible`).
-/

namespace ButtonStyle.Css

/-! ### The reader -/

/-- Reads the line of a comment. -/
def readComment (line : List Char) : Option String := do
  let line ← line.dropPrefix? "/* ".toList
  let text ← line.dropSuffix? " */".toList
  return String.ofList text

/-- Reads the line of the selectors. -/
def readSelectors (line : List Char) : Option (List String) := do
  let line ← line.dropSuffix? " \x7b".toList
  match line.splitOn ',' with
  | [] => none
  | first :: more => do
    let more ← more.mapM fun s => s.dropPrefix? [' ']
    return (first :: more).map String.ofList

/-- Reads the line of a declaration. -/
def readDeclaration (line : List Char) : Option Declaration := do
  let line ← line.dropPrefix? "  ".toList
  let line ← line.dropSuffix? ";".toList
  let (property, value) ← line.dropInfix? ": ".toList
  return ⟨String.ofList property, String.ofList value⟩

/-- Reads as many declarations as there are, and leaves the lines after them. -/
def readDeclarations : List (List Char) → List Declaration × List (List Char)
  | [] => ([], [])
  | line :: lines =>
    match readDeclaration line with
    | some d =>
      let (ds, rest) := readDeclarations lines
      (d :: ds, rest)
    | none => ([], line :: lines)

/-- Reads a rule from the line of its selectors on, with the blank line after it. -/
def readBody (comment : Option String) : List (List Char) → Option (Rule × List (List Char))
  | [] => none
  | line :: lines => do
    let selectors ← readSelectors line
    let (declarations, ['\x7d'] :: [] :: rest) := readDeclarations lines | none
    return (⟨comment, selectors, declarations⟩, rest)

/-- Reads a rule, with the blank line after it, and leaves the lines after that. -/
def readRule : List (List Char) → Option (Rule × List (List Char))
  | [] => none
  | line :: lines =>
    match readComment line with
    | some text => readBody (some text) lines
    | none => readBody none (line :: lines)

theorem length_readDeclarations (lines : List (List Char)) :
    (readDeclarations lines).2.length ≤ lines.length := by
  induction lines with
  | nil => exact Nat.le_refl _
  | cons line lines ih =>
    rw [readDeclarations]
    split
    · exact Nat.le_succ_of_le ih
    · exact Nat.le_refl _

theorem readBody_eq_some_iff {comment : Option String} {line : List Char}
    {lines rest : List (List Char)} {r : Rule} :
    readBody comment (line :: lines) = some (r, rest) ↔
      ∃ selectors declarations, readSelectors line = some selectors ∧
        readDeclarations lines = (declarations, ['\x7d'] :: [] :: rest) ∧
        r = ⟨comment, selectors, declarations⟩ := by
  rw [readBody]
  rcases readSelectors line with _ | selectors
  · simp
  · rcases readDeclarations lines with ⟨declarations, after⟩
    constructor
    · intro h
      simp only [Option.bind_eq_bind, Option.bind_some] at h
      split at h
      · simp_all
      · cases h
    · rintro ⟨_, _, hs, hd, rfl⟩
      simp_all

theorem length_of_readBody {comment : Option String} {lines rest : List (List Char)} {r : Rule}
    (h : readBody comment lines = some (r, rest)) : rest.length < lines.length := by
  cases lines with
  | nil => cases h
  | cons line lines =>
    obtain ⟨selectors, declarations, -, hd, -⟩ := readBody_eq_some_iff.1 h
    have hle := length_readDeclarations lines
    rw [hd, List.length_cons, List.length_cons] at hle
    rw [List.length_cons]
    omega

theorem length_of_readRule {lines rest : List (List Char)} {r : Rule}
    (h : readRule lines = some (r, rest)) : rest.length < lines.length := by
  cases lines with
  | nil => cases h
  | cons line lines =>
    rw [readRule] at h
    split at h
    · exact Nat.lt_succ_of_lt (length_of_readBody h)
    · exact length_of_readBody h

/-- Reads as many rules as there are, and leaves the lines after them. -/
def readRules (lines : List (List Char)) : List Rule × List (List Char) :=
  match _h : readRule lines with
  | none => ([], lines)
  | some (r, rest) =>
    let (rs, rest) := readRules rest
    (r :: rs, rest)
termination_by lines.length
decreasing_by exact length_of_readRule ‹_›

/-- Reads the rules of a stylesheet, and leaves the text after them. -/
def readSheet (s : String) : List Rule × String :=
  let (rs, rest) := readRules (s.toList.splitOn '\n')
  (rs, String.ofList (['\n'].intercalate rest))

/-! ### Lines -/

/-- The line of a comment. -/
def commentLine (text : String) : List Char := "/* ".toList ++ text.toList ++ " */".toList

/-- The line of selectors. -/
def selectorLine (selectors : List String) : List Char :=
  (", ".intercalate selectors).toList ++ " \x7b".toList

/-- The line of a declaration. -/
def Declaration.line (d : Declaration) : List Char :=
  "  ".toList ++ d.property.toList ++ ": ".toList ++ d.value.toList ++ ";".toList

/-- The lines of a rule, with the blank line after it. -/
def Rule.lines (r : Rule) : List (List Char) :=
  (r.comment.map commentLine).toList ++ selectorLine r.selectors ::
    r.declarations.map Declaration.line ++ [['\x7d'], []]

theorem Declaration.toList_css (d : Declaration) : d.css.toList = d.line ++ ['\n'] := by
  have hend : ";\n".toList = ";".toList ++ ['\n'] := by decide
  simp only [css, line, String.toList_append, hend, List.append_assoc]

/-- The text of a rule, with a blank line after it, has just its lines. -/
theorem Rule.toList_css (r : Rule) :
    (r.css ++ "\n\n").toList = r.lines.flatMap (· ++ ['\n']) := by
  have hcomment : r.commentCss.toList =
      (r.comment.map commentLine).toList.flatMap (· ++ ['\n']) := by
    have hend : " */\n".toList = " */".toList ++ ['\n'] := by decide
    unfold commentCss
    cases r.comment with
    | none => rfl
    | some text => simp [commentLine, hend]
  have hdeclarations : (String.join (r.declarations.map Declaration.css)).toList =
      (r.declarations.map Declaration.line).flatMap (· ++ ['\n']) := by
    rw [String.toList_join, List.flatMap_map, List.flatMap_map]
    exact List.flatMap_congr fun d _ => d.toList_css
  have hselectors : " \x7b\n".toList = " \x7b".toList ++ ['\n'] := by decide
  have hend : "\x7d".toList ++ "\n\n".toList = ['\x7d', '\n', '\n'] := by decide
  simp only [css, lines, selectorLine, String.toList_append, hcomment, hdeclarations, hselectors,
    List.flatMap_append, List.flatMap_cons, List.flatMap_nil, List.append_assoc, hend]
  rfl

/-- A line ends at its end. -/
theorem splitOn_lines {lines : List (List Char)} (h : ∀ line ∈ lines, '\n' ∉ line)
    (rest : List Char) :
    (lines.flatMap (· ++ ['\n']) ++ rest).splitOn '\n' = lines ++ rest.splitOn '\n' := by
  induction lines with
  | nil => rfl
  | cons line lines ih =>
    obtain ⟨hline, hlines⟩ := List.forall_mem_cons.1 h
    rw [List.flatMap_cons, List.append_assoc, List.append_assoc, List.singleton_append,
      List.splitOn_append_cons_self, List.splitOn_eq_singleton hline, ih hlines]
    rfl

/-! ### Rules that are read as they were written -/

/-- Each text in a rule ends where its place in the rule ends. -/
structure Rule.IsLegible (r : Rule) : Prop where
  comment : ∀ text ∈ r.comment, '\n' ∉ text.toList
  selectors_ne_nil : r.selectors ≠ []
  selectors : ∀ s ∈ r.selectors, ',' ∉ s.toList ∧ '\n' ∉ s.toList
  properties : ∀ d ∈ r.declarations, ':' ∉ d.property.toList ∧ '\n' ∉ d.property.toList
  values : ∀ d ∈ r.declarations, '\n' ∉ d.value.toList

theorem readComment_eq_some_iff {line : List Char} {text : String} :
    readComment line = some text ↔ line = commentLine text := by
  simp only [readComment, Option.bind_eq_bind, Option.bind_eq_some_iff,
    List.dropPrefix?_eq_some_iff, List.dropSuffix?_eq_some_iff, beq_iff_eq, commentLine,
    Option.pure_def, Option.some.injEq]
  constructor
  · rintro ⟨rest, ⟨_, rfl, rfl⟩, cs, ⟨_, rfl, rfl⟩, rfl⟩
    rw [List.append_assoc, String.toList_ofList (l := cs)]
  · rintro rfl
    exact ⟨text.toList ++ " */".toList, ⟨_, List.append_assoc _ _ _, rfl⟩, text.toList,
      ⟨_, rfl, rfl⟩, String.ofList_toList⟩

/-- Where a comma stands between selectors, a blank stands after it. -/
theorem toList_intercalate_selectors (first : String) (more : List String) :
    (", ".intercalate (first :: more)).toList =
      [','].intercalate (first.toList :: more.map fun s => ' ' :: s.toList) := by
  induction more generalizing first with
  | nil => simp
  | cons second more ih =>
    have hcomma : ", ".toList = [',', ' '] := by decide
    rw [String.intercalate_cons_cons, String.toList_append, String.toList_append, ih, hcomma,
      List.map_cons, List.intercalate_cons_cons]
    cases more <;> simp [List.intercalate_cons_cons]

theorem readSelectors_selectorLine {selectors : List String} (hne : selectors ≠ [])
    (h : ∀ s ∈ selectors, ',' ∉ s.toList) :
    readSelectors (selectorLine selectors) = some selectors := by
  obtain ⟨first, more, rfl⟩ := List.exists_cons_of_ne_nil hne
  have hsplit : (", ".intercalate (first :: more)).toList.splitOn ',' =
      first.toList :: more.map fun s => ' ' :: s.toList := by
    rw [toList_intercalate_selectors]
    refine List.splitOn_intercalate ',' ?_ (List.cons_ne_nil _ _)
    simpa using h
  have hmore : (more.map fun s => ' ' :: s.toList).mapM (fun s => s.dropPrefix? [' ']) =
      some (more.map String.toList) := by
    clear hsplit h hne
    induction more with
    | nil => rfl
    | cons s more ih => simp [List.mapM_cons, List.dropPrefix?, ih]
  have hend : (selectorLine (first :: more)).dropSuffix? " \x7b".toList =
      some (", ".intercalate (first :: more)).toList :=
    List.dropSuffix?_eq_some_iff.2 ⟨_, rfl, by simp⟩
  rw [readSelectors, hend]
  simp only [Option.bind_eq_bind, Option.bind_some, hsplit, hmore]
  simp

/-- A text is cut where the first `c` in it begins what is looked for. -/
theorem dropInfix?_of_notMem {c : Char} {u : List Char} (hc : c ∉ u) (sep v : List Char) :
    (u ++ c :: sep ++ v).dropInfix? (c :: sep) = some (u, v) := by
  refine List.dropInfix?_eq_some_iff.2 ⟨⟨c :: sep, rfl, by simp⟩, fun u' sep' v' h hsep => ?_⟩
  obtain rfl : sep' = c :: sep := by simpa using hsep
  rw [List.append_assoc, List.append_assoc] at h
  rcases List.append_eq_append_iff.1 h with ⟨a, rfl, -⟩ | ⟨a, rfl, ha⟩
  · simp
  · cases a with
    | nil => simp
    | cons d a =>
      obtain ⟨rfl, -⟩ := List.cons.inj ha
      exact absurd (by simp) hc

theorem readDeclaration_line {d : Declaration} (h : ':' ∉ d.property.toList) :
    readDeclaration d.line = some d := by
  have hprefix : d.line.dropPrefix? "  ".toList =
      some (d.property.toList ++ ": ".toList ++ d.value.toList ++ ";".toList) :=
    List.dropPrefix?_eq_some_iff.2 ⟨"  ".toList, by simp [Declaration.line], by simp⟩
  have hsuffix : (d.property.toList ++ ": ".toList ++ d.value.toList ++ ";".toList).dropSuffix?
      ";".toList = some (d.property.toList ++ ": ".toList ++ d.value.toList) :=
    List.dropSuffix?_eq_some_iff.2 ⟨_, rfl, by simp⟩
  have hcut : (d.property.toList ++ ": ".toList ++ d.value.toList).dropInfix? ": ".toList =
      some (d.property.toList, d.value.toList) := dropInfix?_of_notMem h [' '] d.value.toList
  rw [readDeclaration, hprefix]
  simp only [Option.bind_eq_bind, Option.bind_some, hsuffix, hcut]
  simp

theorem readDeclarations_append {ds : List Declaration} (h : ∀ d ∈ ds, ':' ∉ d.property.toList)
    (rest : List (List Char)) :
    readDeclarations (ds.map Declaration.line ++ rest) =
      (ds ++ (readDeclarations rest).1, (readDeclarations rest).2) := by
  induction ds with
  | nil => rfl
  | cons d ds ih =>
    obtain ⟨hd, hds⟩ := List.forall_mem_cons.1 h
    rw [List.map_cons, List.cons_append, readDeclarations, readDeclaration_line hd, ih hds]
    rfl

theorem readDeclarations_lines {ds : List Declaration}
    (h : ∀ d ∈ ds, ':' ∉ d.property.toList) (rest : List (List Char)) :
    readDeclarations (ds.map Declaration.line ++ ['\x7d'] :: rest) = (ds, ['\x7d'] :: rest) := by
  have hbrace : readDeclarations (['\x7d'] :: rest) = ([], ['\x7d'] :: rest) := rfl
  rw [readDeclarations_append h, hbrace, List.append_nil]

theorem readComment_selectorLine (selectors : List String) :
    readComment (selectorLine selectors) = none := by
  rw [Option.eq_none_iff_forall_ne_some]
  intro text h
  rw [readComment_eq_some_iff] at h
  have hlast := congrArg List.reverse h
  simp [selectorLine, commentLine] at hlast

/-- **A rule is read from its lines, whatever lines follow.** -/
theorem Rule.readRule_lines {r : Rule} (h : r.IsLegible) (rest : List (List Char)) :
    readRule (r.lines ++ rest) = some (r, rest) := by
  have hbody : readBody r.comment (selectorLine r.selectors ::
      (r.declarations.map Declaration.line ++ ['\x7d'] :: [] :: rest)) = some (r, rest) :=
    readBody_eq_some_iff.2 ⟨r.selectors, r.declarations,
      readSelectors_selectorLine h.selectors_ne_nil fun s hs => (h.selectors s hs).1,
      readDeclarations_lines (fun d hd => (h.properties d hd).1) _, rfl⟩
  have hlines : r.lines ++ rest = (r.comment.map commentLine).toList ++
      selectorLine r.selectors :: (r.declarations.map Declaration.line ++
        ['\x7d'] :: [] :: rest) := by simp [lines]
  rw [hlines]
  cases hc : r.comment with
  | none =>
    rw [hc] at hbody
    simp only [Option.map_none, Option.toList_none, List.nil_append]
    rw [readRule, readComment_selectorLine]
    exact hbody
  | some text =>
    rw [hc] at hbody
    simp only [Option.map_some, Option.toList_some, List.singleton_append]
    rw [readRule, readComment_eq_some_iff.2 rfl]
    exact hbody

theorem newline_notMem_intercalate {selectors : List String}
    (h : ∀ s ∈ selectors, '\n' ∉ s.toList) : '\n' ∉ (", ".intercalate selectors).toList := by
  induction selectors with
  | nil => simp
  | cons s selectors ih =>
    obtain ⟨hs, hselectors⟩ := List.forall_mem_cons.1 h
    by_cases hnil : selectors = []
    · rwa [hnil, String.intercalate_singleton]
    · simp only [String.intercalate_cons_of_ne_nil hnil, String.toList_append, List.mem_append,
        not_or]
      exact ⟨⟨hs, by decide⟩, ih hselectors⟩

theorem Rule.newline_notMem_lines {r : Rule} (h : r.IsLegible) :
    ∀ line ∈ r.lines, '\n' ∉ line := by
  simp only [lines, List.forall_mem_append, List.forall_mem_cons, List.forall_mem_map]
  refine ⟨⟨fun line hline => ?_, ?_, fun d hd => ?_⟩, by decide, by decide, List.forall_mem_nil _⟩
  · obtain ⟨text, htext, rfl⟩ := Option.map_eq_some_iff.1 (Option.mem_toList.1 hline)
    simp [commentLine, h.comment text htext]
  · simp only [selectorLine, List.mem_append, not_or]
    exact ⟨newline_notMem_intercalate fun s hs => (h.selectors s hs).2, by decide⟩
  · simp [Declaration.line, (h.properties d hd).2, h.values d hd]

/-- As many rules are read as were written, if none can be read after them. -/
theorem readRules_lines {rules : List Rule} (h : ∀ r ∈ rules, r.IsLegible)
    {rest : List (List Char)} (hrest : readRule rest = none) :
    readRules (rules.flatMap Rule.lines ++ rest) = (rules, rest) := by
  induction rules with
  | nil =>
    rw [List.flatMap_nil, List.nil_append, readRules]
    split
    · rfl
    · simp_all
  | cons r rules ih =>
    obtain ⟨hr, hrules⟩ := List.forall_mem_cons.1 h
    have hread := r.readRule_lines hr (rules.flatMap Rule.lines ++ rest)
    rw [List.flatMap_cons, List.append_assoc, readRules]
    split
    · simp_all
    · next r' rest' hread' =>
      rw [hread] at hread'
      obtain ⟨rfl, rfl⟩ := Prod.mk.inj (Option.some.inj hread')
      rw [ih hrules]

/-! ### Sheets -/

/-- The animations begin with a comment, and a line that ends in a closing brace. -/
theorem exists_animations_eq : ∃ line rest : List Char, '\n' ∉ line ∧
    animations.toList = commentLine "Keyframes" ++ '\n' :: (line ++ ['\x7d'] ++ '\n' :: rest) := by
  obtain ⟨rest, h⟩ : ∃ rest, animations.toList = "/* Keyframes */\n".toList ++
      ("@keyframes spin \x7b from \x7b transform: rotate(0deg); \x7d ".toList ++
        ("to \x7b transform: rotate(360deg); \x7d \x7d\n".toList ++ rest)) := by
    unfold animations
    simp only [String.toList_append, List.append_assoc]
    exact ⟨_, rfl⟩
  have hfirst : "/* Keyframes */\n".toList = commentLine "Keyframes" ++ ['\n'] := by decide
  have hsecond : "to \x7b transform: rotate(360deg); \x7d \x7d\n".toList =
      "to \x7b transform: rotate(360deg); \x7d ".toList ++ ['\x7d', '\n'] := by simp
  refine ⟨"@keyframes spin \x7b from \x7b transform: rotate(0deg); \x7d ".toList ++
    "to \x7b transform: rotate(360deg); \x7d ".toList, rest, by simp, ?_⟩
  rw [h, hfirst, hsecond]
  simp only [List.append_assoc, List.cons_append, List.nil_append]

theorem readSelectors_of_closed (line : List Char) : readSelectors (line ++ ['\x7d']) = none := by
  have hnone : (line ++ ['\x7d']).dropSuffix? " \x7b".toList = none := by
    rw [Option.eq_none_iff_forall_ne_some]
    intro start h
    obtain ⟨_, h, hend⟩ := List.dropSuffix?_eq_some_iff.1 h
    rw [eq_of_beq hend] at h
    have hlast := congrArg List.reverse h
    simp at hlast
  rw [readSelectors, hnone]
  rfl

/-- No rule is read from the animations: what follows their comment is no line of selectors. -/
theorem readRule_animations : readRule (animations.toList.splitOn '\n') = none := by
  obtain ⟨line, rest, hline, h⟩ := exists_animations_eq
  have hcomment : '\n' ∉ commentLine "Keyframes" := by decide
  have hclosed : '\n' ∉ line ++ ['\x7d'] := by simpa using hline
  have hlines : animations.toList.splitOn '\n' =
      commentLine "Keyframes" :: (line ++ ['\x7d']) :: rest.splitOn '\n' := by
    rw [h, List.splitOn_append_cons_self, List.splitOn_append_cons_self,
      List.splitOn_eq_singleton hcomment, List.splitOn_eq_singleton hclosed]
    rfl
  rw [hlines, readRule, readComment_eq_some_iff.2 rfl]
  simp only [readBody, readSelectors_of_closed, Option.bind_eq_bind, Option.bind_none]

/-- **The rules of a sheet are read from it as they were written.** -/
theorem readSheet_sheet {rules : List Rule} (h : ∀ r ∈ rules, r.IsLegible) :
    readSheet (sheet rules) = (rules, animations) := by
  have hlines : ∀ line ∈ rules.flatMap Rule.lines, '\n' ∉ line := by
    intro line hline
    obtain ⟨r, hr, hline⟩ := List.mem_flatMap.1 hline
    exact Rule.newline_notMem_lines (h r hr) line hline
  have htext : (sheet rules).toList =
      (rules.flatMap Rule.lines).flatMap (· ++ ['\n']) ++ animations.toList := by
    rw [sheet, String.toList_append, String.toList_join, List.flatMap_map, List.flatMap_assoc]
    congr 1
    exact List.flatMap_congr fun r _ => r.toList_css
  rw [readSheet, htext, splitOn_lines hlines, readRules_lines h readRule_animations]
  simp only [List.intercalate_splitOn, String.ofList_toList]

/-- The first declarations of a sheet are read from it, if each ends with its line, and whatever
comes after them. -/
theorem exists_readDeclarations_sheet {r : Rule} {ds es : List Declaration}
    (hcomment : r.comment = none) (hdeclarations : r.declarations = ds ++ es)
    (hselectors : '\n' ∉ selectorLine r.selectors)
    (hds : ∀ d ∈ ds, ':' ∉ d.property.toList ∧ '\n' ∉ d.line) (rules : List Rule) :
    ∃ more, (readDeclarations (((sheet (r :: rules)).toList.splitOn '\n').drop 1)).1 =
      ds ++ more := by
  have hlines : r.lines = (selectorLine r.selectors :: ds.map Declaration.line) ++
      (es.map Declaration.line ++ [['\x7d'], []]) := by
    simp [Rule.lines, hcomment, hdeclarations]
  have hnewline : ∀ line ∈ selectorLine r.selectors :: ds.map Declaration.line, '\n' ∉ line := by
    simp only [List.forall_mem_cons, List.forall_mem_map]
    exact ⟨hselectors, fun d hd => (hds d hd).2⟩
  rw [sheet, List.map_cons, String.toList_append, String.toList_join, List.flatMap_cons,
    Rule.toList_css, hlines, List.flatMap_append, List.append_assoc, List.append_assoc,
    splitOn_lines hnewline, List.cons_append, List.drop_succ_cons, List.drop_zero,
    readDeclarations_append fun d hd => (hds d hd).1]
  exact ⟨_, rfl⟩

end ButtonStyle.Css
