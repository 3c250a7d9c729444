import Mathlib.Data.List.Perm.Basic
import ButtonStyle.Proofs.CommandLine.Lines

/-!
# Export options written out and read back

The options of an export can be written in any order and each in several spellings
(`ExportOptions.Shows`): the value stands in an argument of its own or is attached to the word or
the letter of the option, the format may be spelled in any way that is read as it, and the element
of a stylesheet may be left out if it is the usual one.

Each of them copies one field when it is read (`ExportOptions.withFrom`), and fields are copied in
any order, so that **all these command lines ask for the same export**
(`Command.ofArguments_of_shows`).
-/

namespace ButtonStyle

open CommandLine

/-! ### Writing options -/

namespace CommandLine

/-- A value that may stand anywhere: it is not empty, and begins neither with a dash nor with an
equals sign. -/
def IsFree (v : String) : Prop :=
  ∃ c cs, v = String.ofList (c :: cs) ∧ c ≠ '-' ∧ c ≠ '='

/-- The arguments that spell an option with a value: the value apart, behind an equals sign, or
right behind the letter. -/
def Switch.spellings (s : Switch) (v : String) : List (List String) :=
  s.marks.flatMap (fun mark => [[mark, v], [mark ++ "=" ++ v]]) ++
    s.short?.toList.map fun c => ["-" ++ String.singleton c ++ v]

theorem IsFree.isPlain {v : String} (h : IsFree v) : IsPlain v := by
  obtain ⟨c, cs, rfl, hc, -⟩ := h
  refine .inl ?_
  simpa using hc

theorem IsFree.isEmpty_eq_false {v : String} (h : IsFree v) : v.isEmpty = false := by
  obtain ⟨c, cs, rfl, -, -⟩ := h
  simp

theorem Spells.of_mem_spellings {s : Switch} (harity : s.arity ≠ .noValue) {v : String}
    (hv : IsFree v) {line : List String} (h : line ∈ s.spellings v) : Spells ⟨s, some v⟩ line := by
  rw [Switch.spellings, List.mem_append, List.mem_flatMap, List.mem_map] at h
  rcases h with ⟨mark, hmark, hline⟩ | ⟨c, hc, rfl⟩
  · rcases List.mem_pair.1 hline with rfl | rfl
    · exact .apart harity hmark hv.isPlain
    · exact .joined v harity hmark
  · obtain ⟨d, cs, rfl, -, hd⟩ := hv
    exact .attached harity (Option.mem_toList.1 hc) hd

example : Switch.input.spellings "a" =
    [["--input", "a"], ["--input=a"], ["-i", "a"], ["-i=a"], ["-ia"]] := by decide

end CommandLine

namespace ExportOptions

/-- The options that an export has. -/
def switches (o : ExportOptions) : List Switch :=
  [.input, .preset, .format, .previewId, .copy].filter o.gives

/-- Arguments spell an option that an export has, with its value. -/
inductive Shows (o : ExportOptions) : Switch → List String → Prop
  | input {path : String} {line : List String} : o.input = some path →
      line ∈ Switch.input.spellings path → Shows o .input line
  | preset {name : String} {line : List String} : o.preset = some name →
      line ∈ Switch.preset.spellings name → Shows o .preset line
  /-- The format may be spelled in any way. -/
  | format {f : Format} {text : String} {line : List String} : o.format = some f →
      Format.ofString? text = some f → IsFree text → line ∈ Switch.format.spellings text →
      Shows o .format line
  | previewId {id : String} {line : List String} : o.previewId = some id →
      line ∈ Switch.previewId.spellings id → Shows o .previewId line
  /-- The usual element need not be named. -/
  | usualId : o.previewId = some Css.previewId → Shows o .previewId ["--preview-id"]
  | copy : o.copy = true → Shows o .copy ["--copy"]

/-- The options with the value of one of them taken from others. -/
def withFrom (e o : ExportOptions) : Switch → ExportOptions
  | .input => { e with input := o.input }
  | .preset => { e with preset := o.preset }
  | .format => { e with format := o.format }
  | .previewId => { e with previewId := o.previewId }
  | .copy => { e with copy := o.copy }
  | .help | .version => e

theorem gives_withFrom_of_ne (e o : ExportOptions) {s t : Switch} (h : s ≠ t) :
    (e.withFrom o s).gives t = e.gives t := by
  cases s <;> cases t <;> first | rfl | exact absurd rfl h

theorem withFrom_comm (e o : ExportOptions) (s t : Switch) :
    (e.withFrom o s).withFrom o t = (e.withFrom o t).withFrom o s := by
  cases s <;> cases t <;> rfl

/-- Taking over all options that are there is taking over everything. -/
theorem foldl_withFrom_switches (o : ExportOptions) :
    o.switches.foldl (fun e s => e.withFrom o s) {} = o := by
  obtain ⟨input, preset, format, previewId, copy⟩ := o
  cases input <;> cases preset <;> cases format <;> cases previewId <;> cases copy <;> rfl

/-- The order in which options are taken over is of no importance. -/
theorem foldl_withFrom_of_perm {o : ExportOptions} {switches : List Switch}
    (h : switches.Perm o.switches) : switches.foldl (fun e s => e.withFrom o s) {} = o := by
  rw [h.foldl_eq' fun s _ t _ e => withFrom_comm e o s t, foldl_withFrom_switches]

theorem nodup_switches (o : ExportOptions) : o.switches.Nodup :=
  List.Pairwise.filter _ (by decide)

end ExportOptions

/-! ### Reading them back -/

namespace ExportOptions.Shows

variable {o : ExportOptions}

/-- **Arguments that show an option spell it, and to enter it is to take over its value.** -/
theorem exists_spells
    (hvalues : ∀ v, o.input = some v ∨ o.preset = some v ∨ o.previewId = some v → IsFree v)
    {s : Switch} {line : List String} (h : o.Shows s line) :
    ∃ value, Spells ⟨s, value⟩ line ∧ ∀ e : Entered, e.options.gives s = false →
      e.enter value s = .ok { e with options := e.options.withFrom o s } := by
  cases h with
  | @input path line hpath hline =>
    have hfree := hvalues path (.inl hpath)
    refine ⟨some path, .of_mem_spellings (by decide) hfree hline, fun e he => ?_⟩
    have hold : e.options.input = none := by simpa [gives] using he
    rw [Entered.enter, Entered.once_eq_ok_iff.2 ⟨hold, rfl⟩, withFrom, hpath]
    exact if_neg (by simp [hfree.isEmpty_eq_false])
  | @preset name line hname hline =>
    have hfree := hvalues name (.inr (.inl hname))
    refine ⟨some name, .of_mem_spellings (by decide) hfree hline, fun e he => ?_⟩
    have hold : e.options.preset = none := by simpa [gives] using he
    rw [Entered.enter, Entered.once_eq_ok_iff.2 ⟨hold, rfl⟩, withFrom, hname]
    rfl
  | @format f text line hformat hf hfree hline =>
    refine ⟨some text, .of_mem_spellings (by decide) hfree hline, fun e he => ?_⟩
    have hold : e.options.format = none := by simpa [gives] using he
    have honce : Entered.once (e.options.format.map Named.name) (some text) = .ok text :=
      Entered.once_eq_ok_iff.2 ⟨by rw [hold]; rfl, rfl⟩
    rw [Entered.enter, honce, withFrom, hformat]
    simp only [bind, Except.bind, hf]
    rfl
  | @previewId id line hid hline =>
    have hfree := hvalues id (.inr (.inr hid))
    refine ⟨some id, .of_mem_spellings (by decide) hfree hline, fun e he => ?_⟩
    rw [Entered.enter, withFrom, hid]
    exact if_neg (Bool.eq_false_iff.1 he)
  | usualId hid =>
    refine ⟨none, .bare (by decide), fun e he => ?_⟩
    rw [Entered.enter, withFrom, hid]
    exact if_neg (Bool.eq_false_iff.1 he)
  | copy hcopy =>
    refine ⟨none, .bare (by decide), fun e he => ?_⟩
    rw [Entered.enter, withFrom, hcopy]
    exact if_neg (Bool.eq_false_iff.1 he)

/-- Arguments that show options are a line of them. -/
theorem line_of_forall₂
    (hvalues : ∀ v, o.input = some v ∨ o.preset = some v ∨ o.previewId = some v → IsFree v)
    {switches : List Switch} {lines : List (List String)}
    (h : List.Forall₂ o.Shows switches lines) : Line switches lines.flatten := by
  induction h with
  | nil => exact .nil
  | cons hshows _ ih =>
    obtain ⟨value, hspells, -⟩ := hshows.exists_spells hvalues
    exact .option hspells ih

/-- **To read arguments that show options is to take these over one after another.** -/
theorem read_flatten
    (hvalues : ∀ v, o.input = some v ∨ o.preset = some v ∨ o.previewId = some v → IsFree v)
    {switches : List Switch} {lines : List (List String)}
    (h : List.Forall₂ o.Shows switches lines) (hnodup : switches.Nodup) {e : Entered}
    (hnew : ∀ s ∈ switches, e.options.gives s = false) {command : Command} :
    (Progress.exporting e).read lines.flatten = .ok command ↔
      (Progress.exporting
        { e with options := switches.foldl (fun e s => e.withFrom o s) e.options }).read [] =
          .ok command := by
  induction h generalizing e with
  | nil => rfl
  | @cons s line switches lines hshows hrest ih =>
    obtain ⟨hs, hnodup⟩ := List.nodup_cons.1 hnodup
    obtain ⟨value, hspells, henter⟩ := hshows.exists_spells hvalues
    have henter := henter e (hnew s (List.mem_cons_self ..))
    have hstill : ∀ t ∈ switches, (e.options.withFrom o s).gives t = false := by
      intro t ht
      have hne : s ≠ t := by
        rintro rfl
        exact hs ht
      rw [gives_withFrom_of_ne _ _ hne]
      exact hnew t (List.mem_cons_of_mem s ht)
    have ih := ih hnodup (e := { e with options := e.options.withFrom o s }) hstill
    rw [List.flatten_cons, Progress.read_append_eq_ok_iff hspells
      (line_of_forall₂ hvalues hrest).not_isPlain, List.foldl_cons, ← ih]
    constructor
    · rintro ⟨e', he, hread⟩
      rw [henter] at he
      cases he
      exact hread
    · exact fun hread => ⟨_, henter, hread⟩

end ExportOptions.Shows

/-- **Options written in any order and any spelling are read back.** -/
theorem Command.ofArguments_of_shows {o : ExportOptions}
    (hsource : o.input = none ∨ o.preset = none)
    (hvalues : ∀ v, o.input = some v ∨ o.preset = some v ∨ o.previewId = some v → IsFree v)
    {switches : List Switch} (horder : switches.Perm o.switches) {lines : List (List String)}
    (hlines : List.Forall₂ o.Shows switches lines) :
    Command.ofArguments ("export" :: lines.flatten) = .ok (.exportButton o) := by
  have hnodup : switches.Nodup := horder.nodup_iff.2 o.nodup_switches
  rw [Command.ofArguments_export, ExportOptions.Shows.read_flatten hvalues hlines hnodup
    (fun s _ => by cases s <;> rfl), ExportOptions.foldl_withFrom_of_perm horder,
    Progress.read_nil_exporting]
  rcases hsource with h | h <;> simp [h]

/-- Options in another order than theirs, each in a spelling of its own. -/
theorem Command.ofArguments_of_shows_reordered :
    Command.ofArguments ["export", "--copy", "--preview-id", "-ia b.json", "-f", " TailWind "] =
      .ok (.exportButton ⟨some "a b.json", none, some .tailwind, some "preview-button", true⟩) := by
  let o : ExportOptions := ⟨some "a b.json", none, some .tailwind, some "preview-button", true⟩
  have hvalues : ∀ v, o.input = some v ∨ o.preset = some v ∨ o.previewId = some v → IsFree v := by
    rintro v (h | h | h) <;> cases h
    · exact ⟨'a', " b.json".toList, by decide, by decide, by decide⟩
    · exact ⟨'p', "review-button".toList, by decide, by decide, by decide⟩
  have hinput : o.Shows .input ["-ia b.json"] := .input rfl (by decide)
  have hfree : IsFree " TailWind " := ⟨' ', "TailWind ".toList, by decide, by decide, by decide⟩
  have hformat : o.Shows .format ["-f", " TailWind "] :=
    .format rfl (by decide) hfree (by decide)
  have hlines : List.Forall₂ o.Shows [.copy, .previewId, .input, .format]
      [["--copy"], ["--preview-id"], ["-ia b.json"], ["-f", " TailWind "]] :=
    .cons (.copy rfl) (.cons (.usualId rfl) (.cons hinput (.cons hformat .nil)))
  exact Command.ofArguments_of_shows (.inr rfl) hvalues (by decide) hlines

end ButtonStyle
