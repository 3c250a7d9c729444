import ButtonStyle.Proofs.CommandLine.Spelling

/-!
# Reading the options of an export

The options of an export are entered one after another: **reading arguments that spell an option is
entering it, and reading on** (`Progress.read_append_eq_ok_iff`).  An option that waits for its
value is entered later than it is read, but this makes no difference for what is accepted
(`Progress.read_eq_ok_iff_of_settle`).
-/

namespace ButtonStyle.CommandLine

/-- A result of two steps is one of the second, from a result of the first. -/
theorem bind_eq_ok_iff {ε α β : Type} {x : Except ε α} {f : α → Except ε β} {b : β} :
    (x >>= f) = .ok b ↔ ∃ a, x = .ok a ∧ f a = .ok b := by
  cases x with
  | error e => exact ⟨nofun, nofun⟩
  | ok a =>
    constructor
    · exact fun h => ⟨a, rfl, h⟩
    · rintro ⟨_, ha, h⟩
      cases ha
      exact h

namespace Progress

/-! ### Options that wait -/

theorem read_cons {p : Progress} (hlevel : p.level = .exportButton) (a : String)
    (rest : List String) : p.read (a :: rest) = p.step a >>= fun q => q.read rest := by
  have hcommand : p.command? a = none := by
    rw [command?, hlevel]
    split <;> rfl
  rw [read, hcommand]

/-- After two dashes nothing more can be read. -/
theorem read_separated {p : Progress} (hlevel : p.level = .exportButton)
    (hseparated : p.separated = true) {rest : List String} {command : Command} :
    p.read rest = .ok command ↔ rest = [] ∧ p.finish = .ok command := by
  cases rest with
  | nil => simp [read]
  | cons a rest =>
    have hread : p.read (a :: rest) = .error (p.surplus a) := by
      rw [read_cons hlevel, step, if_pos hseparated, meetName_eq hlevel]
      rfl
    simp [hread]

theorem settle_of_none {p : Progress} (h : p.waiting = none) : p.settle = .ok p := by
  rw [settle, h]
  rfl

theorem settle_of_some {p : Progress} {w : Waiting} (h : p.waiting = some w) : p.settle =
    p.entered.enter w.value w.switch >>= fun e =>
      .ok { p with entered := e, waiting := none } := by
  rw [settle, h]
  rfl

/-- What has been settled waits no more. -/
theorem settle_eq_ok {p q : Progress} (h : p.settle = .ok q) :
    q = { p with entered := q.entered, waiting := none } := by
  cases hwaiting : p.waiting with
  | none =>
    rw [settle_of_none hwaiting] at h
    cases h
    rw [← hwaiting]
  | some w =>
    rw [settle_of_some hwaiting] at h
    obtain ⟨e, -, h⟩ := bind_eq_ok_iff.1 h
    cases h
    rfl

theorem settle_settled {p q : Progress} (h : p.settle = .ok q) : q.settle = .ok q :=
  settle_of_none (by rw [settle_eq_ok h])

/-- An option that is met is met after what waits has been entered. -/
theorem meet_eq_ok_iff {p r : Progress} {s : Switch} {value : Option String} :
    p.meet s value = .ok r ↔ ∃ q, p.settle = .ok q ∧ q.meet s value = .ok r := by
  have henter (value : Option String) : p.enter s value = .ok r ↔
      ∃ q, p.settle = .ok q ∧ q.enter s value = .ok r := by
    rw [enter, bind_eq_ok_iff]
    refine exists_congr fun q => and_congr_right fun h => ?_
    rw [enter, settle_settled h]
    rfl
  cases harity : s.arity with
  | noValue =>
    cases value with
    | none => simpa only [meet, harity] using henter none
    | some v => simp [meet, harity]
  | value | perhapsValue =>
    cases value with
    | some v => simpa only [meet, harity] using henter (some v)
    | none =>
      simp only [meet, harity]
      rw [bind_eq_ok_iff]
      refine exists_congr fun q => and_congr_right fun h => ?_
      rw [settle_settled h]
      rfl

theorem finish_eq_ok_iff {p : Progress} {command : Command} :
    p.finish = .ok command ↔ ∃ q, p.settle = .ok q ∧ q.finish = .ok command := by
  rw [finish, bind_eq_ok_iff]
  refine exists_congr fun q => and_congr_right fun h => ?_
  rw [finish, settle_settled h]
  rfl

theorem settle_separate (p : Progress) : ({ p with separated := true } : Progress).settle =
    p.settle >>= fun q => .ok { q with separated := true } := by
  cases hwaiting : p.waiting with
  | none =>
    rw [settle_of_none hwaiting, settle_of_none rfl, ← hwaiting]
    rfl
  | some w =>
    rw [settle_of_some hwaiting, settle_of_some rfl]
    cases p.entered.enter w.value w.switch <;> rfl

theorem finish_separate (p : Progress) :
    ({ p with separated := true } : Progress).finish = p.finish := by
  rw [finish, settle_separate, finish]
  cases p.settle <;> rfl

/-- Two dashes are the last argument that can be read. -/
theorem read_dashes {p : Progress} (hlevel : p.level = .exportButton)
    (hseparated : p.separated = false) {a : String} (ha : a.toList = ['-', '-'])
    {rest : List String} {command : Command} :
    p.read (a :: rest) = .ok command ↔ rest = [] ∧ p.finish = .ok command := by
  have hstep : p.step a = .ok { p with separated := true } := by
    rw [step, if_neg (by simp [hseparated]), ha]
    rfl
  rw [read_cons hlevel, hstep, ← finish_separate]
  exact read_separated (p := { p with separated := true }) hlevel rfl

/-- **An option that waits may be entered at once**, unless the next argument is its value: what is
accepted stays the same. -/
theorem read_eq_ok_iff_of_settle {p : Progress} (hlevel : p.level = .exportButton)
    (hseparated : p.separated = false) {rest : List String}
    (hrest : ∀ s, p.waiting = some ⟨s, none⟩ → ∀ a ∈ rest.head?, ¬ IsPlain a) {command : Command} :
    p.read rest = .ok command ↔ ∃ q, p.settle = .ok q ∧ q.read rest = .ok command := by
  have hsettled {q : Progress} (h : p.settle = .ok q) : q.level = .exportButton ∧
      q.separated = false ∧ q.waiting = none := by
    rw [settle_eq_ok h]
    exact ⟨hlevel, hseparated, rfl⟩
  cases rest with
  | nil => exact finish_eq_ok_iff
  | cons a rest =>
    rcases stands a with h | h | h | ⟨s, value, hstep, -, -⟩
    · -- two dashes, behind which everything ends
      rw [read_dashes hlevel hseparated h, finish_eq_ok_iff]
      constructor
      · rintro ⟨rfl, q, hq, hfinish⟩
        obtain ⟨hlevel', hseparated', -⟩ := hsettled hq
        exact ⟨q, hq, (read_dashes hlevel' hseparated' h).2 ⟨rfl, hfinish⟩⟩
      · rintro ⟨q, hq, hread⟩
        obtain ⟨hlevel', hseparated', -⟩ := hsettled hq
        obtain ⟨rfl, hfinish⟩ := (read_dashes hlevel' hseparated' h).1 hread
        exact ⟨rfl, q, hq, hfinish⟩
    · -- a plain argument, which no option waits for
      rw [read_cons hlevel, step_plain hlevel hseparated (fun s hs => hrest s hs a rfl h) h]
      refine iff_of_false nofun ?_
      rintro ⟨q, hq, hread⟩
      obtain ⟨hlevel', hseparated', hwaiting⟩ := hsettled hq
      rw [read_cons hlevel', step_plain hlevel' hseparated' (by simp [hwaiting]) h] at hread
      cases hread
    · -- an argument that is never taken
      rw [read_cons hlevel, h p hlevel hseparated]
      refine iff_of_false nofun ?_
      rintro ⟨q, hq, hread⟩
      obtain ⟨hlevel', hseparated', -⟩ := hsettled hq
      rw [read_cons hlevel', h q hlevel' hseparated'] at hread
      cases hread
    · -- another option
      rw [read_cons hlevel, hstep p hlevel hseparated, bind_eq_ok_iff]
      constructor
      · rintro ⟨r, hmeet, hread⟩
        obtain ⟨q, hq, hmeet⟩ := meet_eq_ok_iff.1 hmeet
        obtain ⟨hlevel', hseparated', -⟩ := hsettled hq
        refine ⟨q, hq, ?_⟩
        rw [read_cons hlevel', hstep q hlevel' hseparated', hmeet]
        exact hread
      · rintro ⟨q, hq, hread⟩
        obtain ⟨hlevel', hseparated', -⟩ := hsettled hq
        rw [read_cons hlevel', hstep q hlevel' hseparated'] at hread
        obtain ⟨r, hmeet, hread⟩ := bind_eq_ok_iff.1 hread
        exact ⟨r, meet_eq_ok_iff.2 ⟨q, hq, hmeet⟩, hread⟩

/-! ### Reading on -/

/-- An export for which options have been entered, and none waits. -/
def exporting (e : Entered) : Progress := { level := .exportButton, entered := e }

theorem read_nil_exporting (e : Entered) : (exporting e).read [] =
    if e.options.input.isSome && e.options.preset.isSome then .error .conflict
    else .ok (.exportButton e.options) := rfl

/-- An option waits, and what stands next is not its value. -/
theorem read_waiting {p : Progress} {e : Entered} {s : Switch} {value : Option String}
    (hp : p = { exporting e with waiting := some ⟨s, value⟩ }) {rest : List String}
    (hrest : value = none → ∀ a ∈ rest.head?, ¬ IsPlain a) {command : Command} :
    p.read rest = .ok command ↔
      ∃ e', e.enter value s = .ok e' ∧ (exporting e').read rest = .ok command := by
  have hwaiting : p.waiting = some ⟨s, value⟩ := by rw [hp]
  have hopen : ∀ t, p.waiting = some ⟨t, none⟩ → ∀ a ∈ rest.head?, ¬ IsPlain a := by
    intro t ht
    rw [hwaiting] at ht
    cases ht
    exact hrest rfl
  have hlevel : p.level = .exportButton := by rw [hp]; rfl
  have hseparated : p.separated = false := by rw [hp]; rfl
  have hsettle : p.settle = e.enter value s >>= fun e' => .ok (exporting e') := by
    rw [settle_of_some hwaiting, hp]
    rfl
  rw [read_eq_ok_iff_of_settle hlevel hseparated hopen, hsettle]
  constructor
  · rintro ⟨q, hq, hread⟩
    obtain ⟨e', he, hq⟩ := bind_eq_ok_iff.1 hq
    cases hq
    exact ⟨e', he, hread⟩
  · rintro ⟨e', he, hread⟩
    exact ⟨exporting e', by rw [he]; rfl, hread⟩

/-- Reads on after an option that is entered at once. -/
theorem read_entering {e : Entered} {s : Switch} {value : Option String} {a : String}
    (h : (exporting e).step a = (exporting e).enter s value) {rest : List String}
    {command : Command} : (exporting e).read (a :: rest) = .ok command ↔
      ∃ e', e.enter value s = .ok e' ∧ (exporting e').read rest = .ok command := by
  have henter : (exporting e).enter s value =
      e.enter value s >>= fun e' => .ok (exporting e') := rfl
  rw [read_cons rfl, h, henter, bind_eq_ok_iff]
  constructor
  · rintro ⟨q, hq, hread⟩
    obtain ⟨e', he, hq⟩ := bind_eq_ok_iff.1 hq
    cases hq
    exact ⟨e', he, hread⟩
  · rintro ⟨e', he, hread⟩
    exact ⟨exporting e', by rw [he]; rfl, hread⟩

/-- The option of a mark waits. -/
theorem read_mark {e : Entered} {s : Switch} (harity : s.arity ≠ .noValue) {mark : String}
    (hmark : mark ∈ s.marks) (rest : List String) :
    (exporting e).read (mark :: rest) =
      ({ exporting e with waiting := some ⟨s, none⟩ } : Progress).read rest := by
  rw [read_cons rfl, step_mark rfl rfl (Switch.mem_of_arity harity) harity hmark,
    meet_none harity]
  rfl

/-- An option that waits takes a plain argument for its value. -/
theorem read_value {e : Entered} {s : Switch} {v : String} (hv : IsPlain v)
    (rest : List String) :
    ({ exporting e with waiting := some ⟨s, none⟩ } : Progress).read (v :: rest) =
      ({ exporting e with waiting := some ⟨s, some v⟩ } : Progress).read rest := by
  rw [read_cons rfl, step_value rfl rfl hv]
  rfl

/-- **Reading arguments that spell an option is entering it, and reading on.** -/
theorem read_append_eq_ok_iff {e : Entered} {x : Setting} {line : List String}
    (hx : Spells x line) {rest : List String} (hrest : ∀ a ∈ rest.head?, ¬ IsPlain a)
    {command : Command} : (exporting e).read (line ++ rest) = .ok command ↔
      ∃ e', e.enter x.value x.switch = .ok e' ∧ (exporting e').read rest = .ok command := by
  cases hx with
  | @bare s harity =>
    cases s with
    | previewId =>
      have harity' : Switch.previewId.arity ≠ .noValue := by decide
      have hmark : "--" ++ Switch.previewId.long ∈ Switch.previewId.marks := List.mem_cons_self ..
      rw [List.singleton_append, read_mark harity' hmark]
      exact read_waiting rfl fun _ => hrest
    | help =>
      refine read_entering ?_
      exact step_of_long (s := .help) rfl rfl (by decide) none (by decide)
    | copy =>
      refine read_entering ?_
      exact step_of_long (s := .copy) rfl rfl (by decide) none (by decide)
    | version =>
      rw [List.singleton_append, read_cons rfl, step_version rfl rfl]
      refine iff_of_false nofun ?_
      rintro ⟨e', he, -⟩
      cases he
    | input | preset | format => exact absurd rfl harity
  | @apart s mark v harity hmark hv =>
    rw [List.cons_append, List.singleton_append, read_mark harity hmark, read_value hv]
    exact read_waiting rfl fun h => absurd h (Option.some_ne_none v)
  | @joined s mark v harity hmark =>
    refine read_entering ?_
    rw [step_joined rfl rfl (Switch.mem_of_arity harity) harity hmark, meet_some harity]
  | @attached s c d cs harity hc hd =>
    refine read_entering ?_
    rw [step_attached rfl rfl (Switch.mem_of_arity harity) harity hc hd, meet_some harity]

end Progress

end ButtonStyle.CommandLine
