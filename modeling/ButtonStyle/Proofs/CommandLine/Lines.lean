import ButtonStyle.Proofs.CommandLine.Reading

/-!
# Lines of options

A line consists of arguments that spell options one after another, with two dashes between them
perhaps (`Line`).  **Whatever is accepted for an export is a line** (`exists_line_of_read`), and
**none of its options occurs twice or has been given before** (`Line.nodup_of_read`).
-/

namespace ButtonStyle

open CommandLine

/-- Whether an export has an option. -/
def ExportOptions.gives (o : ExportOptions) : Switch → Bool
  | .input => o.input.isSome
  | .preset => o.preset.isSome
  | .format => o.format.isSome
  | .previewId => o.previewId.isSome
  | .copy => o.copy
  | .help | .version => false

namespace CommandLine

/-! ### Lines -/

/-- Arguments that spell the options of a list one after another, with two dashes anywhere between
them. -/
inductive Line : List Switch → List String → Prop
  | nil : Line [] []
  | option {x : Setting} {line rest : List String} {switches : List Switch} : Spells x line →
      Line switches rest → Line (x.switch :: switches) (line ++ rest)
  | dashes {rest : List String} {switches : List Switch} : Line switches rest →
      Line switches ("--" :: rest)

theorem Line.append {switches more : List Switch} {line rest : List String}
    (h : Line switches line) (hrest : Line more rest) : Line (switches ++ more) (line ++ rest) := by
  induction h with
  | nil => exact hrest
  | option hx _ ih =>
    rw [List.append_assoc]
    exact .option hx ih
  | dashes _ ih => exact .dashes ih

theorem not_isPlain_of_dash {a : String} (c : Char) (cs : List Char)
    (h : a.toList = '-' :: c :: cs) : ¬ IsPlain a := by
  rw [IsPlain, h]
  simp

theorem not_isPlain_mark {s : Switch} {mark more : String} (h : mark ∈ s.marks) :
    ¬ IsPlain (mark ++ more) := by
  rw [Switch.marks, List.mem_cons, List.mem_map] at h
  rcases h with rfl | ⟨c, -, rfl⟩
  · refine not_isPlain_of_dash '-' (s.long.toList ++ more.toList) ?_
    simp
  · refine not_isPlain_of_dash c more.toList ?_
    simp

/-- What spells an option begins with an argument that is no value. -/
theorem Spells.exists_cons {x : Setting} {line : List String} (h : Spells x line) :
    ∃ a more, line = a :: more ∧ ¬ IsPlain a := by
  cases h with
  | @bare s harity =>
    refine ⟨_, _, rfl, not_isPlain_of_dash '-' s.long.toList ?_⟩
    exact s.toList_long_mark
  | @apart s mark v harity hmark hv =>
    refine ⟨_, _, rfl, ?_⟩
    rw [← mark.append_empty]
    exact not_isPlain_mark hmark
  | @joined s mark v harity hmark =>
    refine ⟨_, _, rfl, ?_⟩
    rw [String.append_assoc]
    exact not_isPlain_mark hmark
  | @attached s c d cs harity hc hd =>
    refine ⟨_, _, rfl, not_isPlain_of_dash c (d :: cs) ?_⟩
    simp

theorem Line.not_isPlain {switches : List Switch} {line : List String} (h : Line switches line) :
    ∀ a ∈ line.head?, ¬ IsPlain a := by
  cases h with
  | nil => exact nofun
  | option hx hrest =>
    obtain ⟨a, more, rfl, ha⟩ := hx.exists_cons
    rintro _ ⟨⟩
    exact ha
  | dashes =>
    rintro _ ⟨⟩
    exact not_isPlain_of_dash '-' [] (by decide)

/-- An option that is entered without a value needs none, and stands for itself. -/
theorem spells_of_enter_none {e e' : Entered} {s : Switch} (h : e.enter none s = .ok e')
    {a : String} (ha : a ∈ s.marks) : Spells ⟨s, none⟩ [a] := by
  cases s with
  | help | version | input | preset | format => cases h
  | previewId | copy =>
    rw [List.mem_singleton.1 ha]
    exact .bare (by decide)

/-- Arguments begin with an option, behind which a command is read. -/
def TakesOption (arguments : List String) (command : Command) : Prop :=
  ∃ (x : Setting) (line rest : List String) (e : Entered), Spells x line ∧
    arguments = line ++ rest ∧ (Progress.exporting e).read rest = .ok command

/-- The mark of an option that can have a value stands for the option alone or with the argument
behind it. -/
theorem takesOption_of_mark {e : Entered} {s : Switch} (harity : s.arity ≠ .noValue) {a : String}
    (hmark : a ∈ s.marks) {rest : List String} {command : Command}
    (h : (Progress.exporting e).read (a :: rest) = .ok command) :
    TakesOption (a :: rest) command := by
  rw [Progress.read_mark harity hmark] at h
  have hbare (hrest : ∀ b ∈ rest.head?, ¬ IsPlain b) : TakesOption (a :: rest) command := by
    obtain ⟨e', he, hread⟩ := (Progress.read_waiting rfl fun _ => hrest).1 h
    exact ⟨_, _, _, e', spells_of_enter_none he hmark, rfl, hread⟩
  cases rest with
  | nil => exact hbare nofun
  | cons b rest =>
    by_cases hb : IsPlain b
    · rw [Progress.read_value hb] at h
      obtain ⟨e', -, hread⟩ :=
        (Progress.read_waiting rfl fun h => absurd h (Option.some_ne_none b)).1 h
      exact ⟨_, _, _, e', .apart harity hmark hb, rfl, hread⟩
    · refine hbare ?_
      rintro _ ⟨⟩
      exact hb

/-- What is accepted begins with an option, or is two dashes. -/
theorem read_cons_cases {e : Entered} {a : String} {rest : List String} {command : Command}
    (h : (Progress.exporting e).read (a :: rest) = .ok command) :
    (a = "--" ∧ rest = []) ∨ TakesOption (a :: rest) command := by
  rcases Progress.stands a with ha | ha | ha | ⟨s, value, hstep, hnone, hsome⟩
  · obtain ⟨rfl, -⟩ := (Progress.read_dashes rfl rfl ha).1 h
    exact .inl ⟨String.toList_injective ha, rfl⟩
  · have hwaiting : ∀ s, (Progress.exporting e).waiting ≠ some ⟨s, none⟩ := fun s => nofun
    rw [Progress.read_cons rfl, Progress.step_plain rfl rfl hwaiting ha] at h
    cases h
  · rw [Progress.read_cons rfl, ha _ rfl rfl] at h
    cases h
  · refine .inr ?_
    have hstep := hstep (Progress.exporting e) rfl rfl
    by_cases harity : s.arity = .noValue
    · cases value with
      | some v =>
        rw [Progress.read_cons rfl, hstep, Progress.meet_flag_some harity] at h
        cases h
      | none =>
        rw [Progress.meet_flag_none harity] at hstep
        obtain ⟨e', he, hread⟩ := (Progress.read_entering hstep).1 h
        rcases hnone rfl with hmark | rfl
        · exact ⟨_, _, _, e', spells_of_enter_none he hmark, rfl, hread⟩
        · cases he
    · cases value with
      | some v =>
        rw [Progress.meet_some harity] at hstep
        obtain ⟨e', -, hread⟩ := (Progress.read_entering hstep).1 h
        exact ⟨_, _, _, e', hsome v rfl harity, rfl, hread⟩
      | none =>
        rcases hnone rfl with hmark | rfl
        · exact takesOption_of_mark harity hmark h
        · exact absurd rfl harity

/-- **Whatever is accepted is a line of options.** -/
theorem exists_line_of_read {e : Entered} {arguments : List String} {command : Command}
    (h : (Progress.exporting e).read arguments = .ok command) :
    ∃ switches, Line switches arguments := by
  induction hn : arguments.length using Nat.strongRecOn generalizing e arguments with
  | _ n ih =>
    subst hn
    cases arguments with
    | nil => exact ⟨[], .nil⟩
    | cons a rest =>
      rcases read_cons_cases h with ⟨rfl, rfl⟩ | ⟨x, line, rest', e', hx, harguments, hread⟩
      · exact ⟨[], .dashes .nil⟩
      · obtain ⟨b, more, rfl, -⟩ := hx.exists_cons
        have hlength : rest'.length < (a :: rest).length := by
          have hsum := congrArg List.length harguments
          simp only [List.length_append, List.length_cons] at hsum ⊢
          omega
        obtain ⟨switches, hline⟩ := ih _ hlength hread rfl
        rw [harguments]
        exact ⟨_, .option hx hline⟩

/-! ### Options that are given -/

namespace Entered

theorem once_eq_ok_iff {old new : Option String} {v : String} :
    once old new = .ok v ↔ old = none ∧ new = some v := by
  cases new with
  | none => simp [once]
  | some w => cases old <;> simp [once]

/-- **An option is entered only if it has not been given**, and then it alone is given besides. -/
theorem gives_of_enter {e e' : Entered} {value : Option String} {s : Switch}
    (h : e.enter value s = .ok e') : e.options.gives s = false ∧
      ∀ t, e'.options.gives t = (t = s || e.options.gives t) := by
  cases s with
  | help | version => cases h
  | input =>
    obtain ⟨v, hv, h⟩ := bind_eq_ok_iff.1 h
    obtain ⟨hold, -⟩ := once_eq_ok_iff.1 hv
    split_ifs at h
    cases h
    exact ⟨by rw [ExportOptions.gives, hold]; rfl, fun t => by cases t <;> rfl⟩
  | preset =>
    obtain ⟨v, hv, h⟩ := bind_eq_ok_iff.1 h
    obtain ⟨hold, -⟩ := once_eq_ok_iff.1 hv
    cases h
    exact ⟨by rw [ExportOptions.gives, hold]; rfl, fun t => by cases t <;> rfl⟩
  | format =>
    obtain ⟨v, hv, h⟩ := bind_eq_ok_iff.1 h
    obtain ⟨hold, -⟩ := once_eq_ok_iff.1 hv
    rw [Option.map_eq_none_iff] at hold
    cases hformat : Format.ofString? v with
    | none =>
      simp only [hformat] at h
      cases h
    | some format =>
      simp only [hformat] at h
      cases h
      exact ⟨by rw [ExportOptions.gives, hold]; rfl, fun t => by cases t <;> rfl⟩
  | previewId =>
    rw [enter] at h
    split_ifs at h with hold
    cases h
    exact ⟨Bool.eq_false_iff.2 hold, fun t => by cases t <;> rfl⟩
  | copy =>
    rw [enter] at h
    split_ifs at h with hold
    cases h
    exact ⟨Bool.eq_false_iff.2 hold, fun t => by cases t <;> rfl⟩

end Entered

/-- An empty line has no options. -/
theorem Line.eq_nil {switches : List Switch} {line : List String} (h : Line switches line)
    (hline : line = []) : switches = [] := by
  cases h with
  | nil => rfl
  | option hx =>
    obtain ⟨a, more, rfl, -⟩ := hx.exists_cons
    cases hline
  | dashes => cases hline

/-- **None of the options of a line that is accepted occurs twice or has been given before.** -/
theorem Line.nodup_of_read {switches : List Switch} {line : List String} (h : Line switches line)
    {e : Entered} {command : Command} (hread : (Progress.exporting e).read line = .ok command) :
    switches.Nodup ∧ ∀ s ∈ switches, e.options.gives s = false := by
  induction h generalizing e with
  | nil => exact ⟨List.nodup_nil, nofun⟩
  | @option x line rest switches hx hrest ih =>
    obtain ⟨e', he, hread⟩ := (Progress.read_append_eq_ok_iff hx hrest.not_isPlain).1 hread
    obtain ⟨hnodup, hnew⟩ := ih hread
    obtain ⟨hx, hgives⟩ := Entered.gives_of_enter he
    constructor
    · refine List.nodup_cons.2 ⟨fun hmem => ?_, hnodup⟩
      have hnot := hnew _ hmem
      rw [hgives, decide_eq_true rfl] at hnot
      cases hnot
    · intro s hs
      rcases List.mem_cons.1 hs with rfl | hs
      · exact hx
      · have hnot := hnew s hs
        rw [hgives, Bool.or_eq_false_iff] at hnot
        exact hnot.2
  | @dashes rest switches hrest ih =>
    obtain ⟨rfl, -⟩ := (Progress.read_dashes rfl rfl (by decide)).1 hread
    rw [hrest.eq_nil rfl]
    exact ⟨List.nodup_nil, nofun⟩

/-- **What a line gives besides what has been given is its options.** -/
theorem Line.gives_of_read {switches : List Switch} {line : List String} (h : Line switches line)
    {e : Entered} {o : ExportOptions}
    (hread : (Progress.exporting e).read line = .ok (.exportButton o)) (s : Switch) :
    o.gives s = true ↔ s ∈ switches ∨ e.options.gives s = true := by
  have hend {e : Entered} (hread : (Progress.exporting e).read [] = .ok (.exportButton o)) :
      e.options = o := by
    rw [Progress.read_nil_exporting] at hread
    split_ifs at hread
    cases hread
    rfl
  induction h generalizing e with
  | nil => simp [hend hread]
  | @option x line rest switches hx hrest ih =>
    obtain ⟨e', he, hread⟩ := (Progress.read_append_eq_ok_iff hx hrest.not_isPlain).1 hread
    refine (ih hread).trans ?_
    rw [(Entered.gives_of_enter he).2, Bool.or_eq_true, decide_eq_true_iff,
      List.mem_cons, or_left_comm, or_assoc]
  | @dashes rest switches hrest ih =>
    obtain ⟨rfl, hfinish⟩ := (Progress.read_dashes rfl rfl (by decide)).1 hread
    rw [hrest.eq_nil rfl, hend hfinish]
    simp

end CommandLine

theorem Command.ofArguments_export (rest : List String) :
    Command.ofArguments ("export" :: rest) = (Progress.exporting {}).read rest := rfl

end ButtonStyle
