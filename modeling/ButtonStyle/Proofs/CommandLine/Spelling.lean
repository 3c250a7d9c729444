import Mathlib.Data.List.Basic
import ButtonStyle.CommandLine.Parser

/-!
# Arguments that spell options

Arguments spell an option if they stand for it and its value (`Spells`): its word or its letter,
and the value as the next argument or attached to it.

What an argument is where the options of an export are read (`Progress.Stands`) does not depend on
how far they have been read: two dashes, a plain argument, an option of an export with the value
that is attached to it, or nothing that is known.
-/

namespace ButtonStyle.CommandLine

/-! ### Spelling options -/

/-- An option with its value, if it has one. -/
structure Setting where
  switch : Switch
  value : Option String := none

/-- An argument is no option: it does not begin with a dash, or is a dash alone. -/
def IsPlain (argument : String) : Prop :=
  argument.toList.head? ≠ some '-' ∨ argument.toList = ['-']

/-- The word and the letter of an option, each with its dashes. -/
def Switch.marks (s : Switch) : List String :=
  ("--" ++ s.long) :: s.short?.toList.map fun c => "-" ++ String.singleton c

/-- Arguments stand for an option and its value.  The value is the next argument, or stands behind
an equals sign, or right behind the letter if it does not begin with an equals sign. -/
inductive Spells : Setting → List String → Prop
  | bare {s : Switch} : s.arity ≠ .value → Spells ⟨s, none⟩ ["--" ++ s.long]
  | apart {s : Switch} {mark v : String} : s.arity ≠ .noValue → mark ∈ s.marks → IsPlain v →
      Spells ⟨s, some v⟩ [mark, v]
  | joined {s : Switch} {mark : String} (v : String) : s.arity ≠ .noValue → mark ∈ s.marks →
      Spells ⟨s, some v⟩ [mark ++ "=" ++ v]
  | attached {s : Switch} {c d : Char} {cs : List Char} : s.arity ≠ .noValue →
      s.short? = some c → d ≠ '=' →
      Spells ⟨s, some (String.ofList (d :: cs))⟩
        ["-" ++ String.singleton c ++ String.ofList (d :: cs)]

/-! ### Kinds of argument -/

theorem splitValue_of_notMem {name : List Char} (h : '=' ∉ name) :
    splitValue name = (name, none) := by
  induction name with
  | nil => rfl
  | cons c name ih =>
    rw [List.mem_cons, not_or] at h
    rw [splitValue, if_neg (Ne.symm h.1), ih h.2]

theorem splitValue_append {name : List Char} (h : '=' ∉ name) (v : List Char) :
    splitValue (name ++ '=' :: v) = (name, some v) := by
  induction name with
  | nil => rfl
  | cons c name ih =>
    rw [List.mem_cons, not_or] at h
    rw [List.cons_append, splitValue, if_neg (Ne.symm h.1), ih h.2]

/-- What is split at its first equals sign can be put together again. -/
theorem eq_of_splitValue {cs name : List Char} {value : Option (List Char)}
    (h : splitValue cs = (name, value)) :
    cs = name ++ value.elim [] ('=' :: ·) := by
  induction cs generalizing name value with
  | nil =>
    cases h
    rfl
  | cons c cs ih =>
    rw [splitValue] at h
    split_ifs at h with hc
    · cases h
      rw [hc]
      rfl
    · obtain ⟨rfl, rfl⟩ := Prod.mk.inj h
      rw [List.cons_append, ← ih rfl]

namespace Argument

theorem ofChars_long {cs : List Char} (h : cs ≠ []) :
    ofChars ('-' :: '-' :: cs) = .long (splitValue cs).1 (splitValue cs).2 := by
  cases cs with
  | nil => exact absurd rfl h
  | cons c cs => rfl

theorem ofChars_short {c : Char} (h : c ≠ '-') (cs : List Char) :
    ofChars ('-' :: c :: cs) = .short c cs := by
  rw [ofChars] <;> simp [h]

theorem ofChars_of_ne {c : Char} (h : c ≠ '-') (cs : List Char) : ofChars (c :: cs) = .plain := by
  rw [ofChars] <;> simp [h]

theorem ofChars_eq_plain {argument : String} (h : IsPlain argument) :
    ofChars argument.toList = .plain := by
  rcases h with h | h
  · cases hcs : argument.toList with
    | nil => rfl
    | cons c cs =>
      rw [hcs] at h
      exact ofChars_of_ne (fun hc => h (by rw [hc]; rfl)) cs
  · rw [h]
    rfl

/-- The four kinds of argument. -/
theorem ofChars_cases (argument : String) :
    argument.toList = ['-', '-'] ∨
    (∃ name value, argument.toList = '-' :: '-' :: (name ++ value.elim [] ('=' :: ·)) ∧
      ofChars argument.toList = .long name value) ∨
    (∃ c more, argument.toList = '-' :: c :: more ∧ ofChars argument.toList = .short c more) ∨
    IsPlain argument := by
  rw [IsPlain]
  match argument.toList with
  | [] => exact .inr (.inr (.inr (.inl nofun)))
  | ['-'] => exact .inr (.inr (.inr (.inr rfl)))
  | c :: d :: cs =>
    by_cases hc : c = '-'
    · subst hc
      by_cases hd : d = '-'
      · subst hd
        cases cs with
        | nil => exact .inl rfl
        | cons e cs => exact .inr (.inl ⟨_, _, by rw [← eq_of_splitValue rfl], ofChars_long nofun⟩)
      · exact .inr (.inr (.inl ⟨d, cs, rfl, ofChars_short hd cs⟩))
    · exact .inr (.inr (.inr (.inl (by simpa using hc))))
  | [c] =>
    by_cases hc : c = '-'
    · exact .inr (.inr (.inr (.inr (by rw [hc]))))
    · exact .inr (.inr (.inr (.inl (by simpa using hc))))

end Argument

/-! ### Options of an export -/

namespace Switch

theorem long_ne_nil (s : Switch) : s.long.toList ≠ [] := by cases s <;> decide

theorem equals_notMem_long (s : Switch) : '=' ∉ s.long.toList := by cases s <;> decide

theorem ne_dash_of_short {s : Switch} {c : Char} (h : s.short? = some c) : c ≠ '-' := by
  cases s <;> cases h <;> decide

theorem toList_long_mark (s : Switch) : ("--" ++ s.long).toList = '-' :: '-' :: s.long.toList := by
  rw [String.toList_append]
  rfl

theorem toList_short_mark (c : Char) : ("-" ++ String.singleton c).toList = ['-', c] := by
  rw [String.toList_append, String.toList_singleton]
  rfl

/-- An option of an export is found by its word. -/
theorem find?_long {s : Switch} (h : s ∈ Level.exportButton.switches) :
    Level.exportButton.switches.find? (fun t => t.long.toList == s.long.toList) = some s := by
  revert s
  decide

/-- An option of an export is found by its letter. -/
theorem find?_short {s : Switch} (h : s ∈ Level.exportButton.switches) {c : Char}
    (hc : s.short? = some c) :
    Level.exportButton.switches.find? (fun t => t.short? == some c) = some s := by
  cases s <;> cases hc <;> first | rfl | exact absurd h (by decide)

/-- Every option with a value is one of an export. -/
theorem mem_of_arity {s : Switch} (h : s.arity ≠ .noValue) : s ∈ Level.exportButton.switches := by
  cases s <;> first | decide | exact absurd rfl h

/-- Only the letter for help stands for an option without a value. -/
theorem eq_help {s : Switch} (h : s ∈ Level.exportButton.switches) {c : Char}
    (hc : s.short? = some c) (harity : s.arity = .noValue) : s = .help := by
  cases s with
  | help => rfl
  | version => exact absurd h (by decide)
  | copy => exact absurd hc nofun
  | input | preset | format | previewId => cases harity

end Switch

theorem attached?_cons_ne_none (c : Char) (cs : List Char) : attached? (c :: cs) ≠ none := by
  by_cases hc : c = '='
  · rw [hc]
    exact nofun
  · rw [attached?] <;> simp [hc]

/-- A value that stands behind a letter may have an equals sign in front. -/
theorem attached?_eq_some {more : List Char} {v : String} (h : attached? more = some v) :
    (∃ cs, more = '=' :: cs ∧ v = String.ofList cs) ∨
    (∃ d cs, d ≠ '=' ∧ more = d :: cs ∧ v = String.ofList (d :: cs)) := by
  cases more with
  | nil => cases h
  | cons d cs =>
    by_cases hd : d = '='
    · subst hd
      cases h
      exact .inl ⟨cs, rfl, rfl⟩
    · rw [attached?] at h
      · cases h
        exact .inr ⟨d, cs, hd, rfl, rfl⟩
      · simp
      · simp [hd]

namespace Progress

section Step

variable {p : Progress} {s : Switch} (hlevel : p.level = .exportButton)
  (hseparated : p.separated = false) (hs : s ∈ Level.exportButton.switches)
include hlevel hseparated hs

theorem step_of_long {argument : String} (value : Option (List Char))
    (h : argument.toList = '-' :: '-' :: (s.long.toList ++ value.elim [] ('=' :: ·))) :
    p.step argument = p.meet s (value.map String.ofList) := by
  have hsplit : splitValue (s.long.toList ++ value.elim [] ('=' :: ·)) =
      (s.long.toList, value) := by
    cases value with
    | none =>
      rw [Option.elim_none, List.append_nil]
      exact splitValue_of_notMem s.equals_notMem_long
    | some v => exact splitValue_append s.equals_notMem_long v
  rw [step, hseparated, h, Argument.ofChars_long (by simp [s.long_ne_nil]), hsplit]
  simp only [hlevel, Switch.find?_long hs]
  rfl

theorem step_of_short {argument : String} {c : Char} (hc : s.short? = some c) (more : List Char)
    (h : argument.toList = '-' :: c :: more) :
    p.step argument = p.meet s (if s.arity = .noValue then none else attached? more) := by
  rw [step, hseparated, h, Argument.ofChars_short (Switch.ne_dash_of_short hc)]
  simp only [hlevel, Switch.find?_short hs hc]
  rfl

/-- The mark of an option stands for the option. -/
theorem step_mark {mark : String} (harity : s.arity ≠ .noValue) (hmark : mark ∈ s.marks) :
    p.step mark = p.meet s none := by
  rw [Switch.marks, List.mem_cons, List.mem_map] at hmark
  rcases hmark with rfl | ⟨c, hc, rfl⟩
  · rw [step_of_long hlevel hseparated hs none (by simp)]
    rfl
  · rw [Option.mem_toList] at hc
    rw [step_of_short hlevel hseparated hs hc [] (Switch.toList_short_mark c), if_neg harity]
    rfl

/-- A value behind an equals sign is the value of the option. -/
theorem step_joined {mark : String} (harity : s.arity ≠ .noValue) (hmark : mark ∈ s.marks)
    (v : String) : p.step (mark ++ "=" ++ v) = p.meet s (some v) := by
  have hequals : ("=" : String).toList = ['='] := by decide
  rw [Switch.marks, List.mem_cons, List.mem_map] at hmark
  rcases hmark with rfl | ⟨c, hc, rfl⟩
  · rw [step_of_long hlevel hseparated hs (some v.toList) (by simp)]
    simp
  · rw [Option.mem_toList] at hc
    rw [step_of_short hlevel hseparated hs hc ('=' :: v.toList)
      (by rw [String.toList_append, String.toList_append, Switch.toList_short_mark, hequals]; rfl),
      if_neg harity]
    simp [attached?]

/-- A value right behind the letter is the value of the option. -/
theorem step_attached {c d : Char} {cs : List Char} (harity : s.arity ≠ .noValue)
    (hc : s.short? = some c) (hd : d ≠ '=') :
    p.step ("-" ++ String.singleton c ++ String.ofList (d :: cs)) =
      p.meet s (some (String.ofList (d :: cs))) := by
  rw [step_of_short hlevel hseparated hs hc (d :: cs)
    (by rw [String.toList_append, Switch.toList_short_mark, String.toList_ofList]; rfl),
    if_neg harity]
  rw [attached?] <;> simp [hd]

end Step

theorem meet_flag_none {p : Progress} {s : Switch} (harity : s.arity = .noValue) :
    p.meet s none = p.enter s none := by
  rw [meet.eq_def, harity]

theorem meet_flag_some {p : Progress} {s : Switch} {v : String} (harity : s.arity = .noValue) :
    p.meet s (some v) = .error .valueNotTaken := by
  rw [meet.eq_def, harity]

theorem meet_some {p : Progress} {s : Switch} {v : String} (harity : s.arity ≠ .noValue) :
    p.meet s (some v) = p.enter s (some v) := by
  rw [meet.eq_def]
  cases h : s.arity with
  | noValue => exact absurd h harity
  | value | perhapsValue => rfl

theorem meet_none {p : Progress} {s : Switch} (harity : s.arity ≠ .noValue) : p.meet s none =
    p.settle >>= fun q => .ok { q with waiting := some ⟨s, none⟩ } := by
  rw [meet.eq_def]
  cases h : s.arity with
  | noValue => exact absurd h harity
  | value | perhapsValue => rfl

/-- An option that is none of an export is not taken. -/
theorem step_version {p : Progress} (hlevel : p.level = .exportButton)
    (hseparated : p.separated = false) : p.step ("--" ++ Switch.version.long) =
      .error .argumentUnknown := by
  have hchars : Argument.ofChars ("--" ++ Switch.version.long).toList =
      .long Switch.version.long.toList none := by decide
  rw [step, hseparated, hchars]
  simp only [hlevel]
  rfl

/-- A plain argument is the value of an option that waits for one. -/
theorem step_value {p : Progress} {s : Switch} {v : String} (hseparated : p.separated = false)
    (hwaiting : p.waiting = some ⟨s, none⟩) (hv : IsPlain v) :
    p.step v = .ok { p with waiting := some ⟨s, some v⟩ } := by
  rw [step, if_neg (by simp [hseparated]), Argument.ofChars_eq_plain hv]
  simp only [meetPlain, hwaiting]

/-- There is no place for a name in an export. -/
theorem meetName_eq {p : Progress} (hlevel : p.level = .exportButton) (argument : String) :
    p.meetName argument = .error (p.surplus argument) := by
  rw [meetName, if_neg (by simp [hlevel])]

/-- There is no place for a plain argument if no option waits for one. -/
theorem step_plain {p : Progress} {a : String} (hlevel : p.level = .exportButton)
    (hseparated : p.separated = false) (hwaiting : ∀ s, p.waiting ≠ some ⟨s, none⟩)
    (ha : IsPlain a) : p.step a = .error (p.surplus a) := by
  rw [step, if_neg (by simp [hseparated]), Argument.ofChars_eq_plain ha, ← meetName_eq hlevel]
  simp only [meetPlain]

/-- What an argument is where the options of an export are read. -/
inductive Stands (a : String) : Prop
  | separator (h : a.toList = ['-', '-'])
  | plain (h : IsPlain a)
  | unknown (h : ∀ p : Progress, p.level = .exportButton → p.separated = false →
      p.step a = .error .argumentUnknown)
  /-- The argument stands for an option, whose value may be attached. -/
  | option (s : Switch) (value : Option String)
      (hstep : ∀ p : Progress, p.level = .exportButton → p.separated = false →
        p.step a = p.meet s value)
      (hnone : value = none → a ∈ s.marks ∨ s = .help)
      (hsome : ∀ v, value = some v → s.arity ≠ .noValue → Spells ⟨s, some v⟩ [a])

/-- Two dashes and a word stand for an option, or for nothing that is known. -/
theorem stands_of_long {a : String} {name : List Char} {value : Option (List Char)}
    (h : a.toList = '-' :: '-' :: (name ++ value.elim [] ('=' :: ·)))
    (hkind : Argument.ofChars a.toList = .long name value) : Stands a := by
  cases hfind : Level.exportButton.switches.find? fun s => s.long.toList == name with
  | none =>
    refine .unknown fun p hlevel hseparated => ?_
    rw [step, hseparated, hkind]
    simp only [hlevel, hfind]
    rfl
  | some s =>
    have hs : s ∈ Level.exportButton.switches := List.mem_of_find?_eq_some hfind
    have hname : s.long.toList = name := by simpa using List.find?_some hfind
    subst hname
    refine .option s (value.map String.ofList)
      (fun p hlevel hseparated => step_of_long hlevel hseparated hs value h) ?_ ?_
    · intro hvalue
      rw [Option.map_eq_none_iff] at hvalue
      refine .inl (List.mem_cons.2 (.inl (String.toList_injective ?_)))
      rw [h, hvalue, Switch.toList_long_mark, Option.elim_none, List.append_nil]
    · intro v hvalue harity
      obtain ⟨cs, rfl, rfl⟩ := Option.map_eq_some_iff.1 hvalue
      have ha : a = "--" ++ s.long ++ "=" ++ String.ofList cs := by
        apply String.toList_injective
        rw [h]
        simp
      rw [ha]
      exact .joined _ harity (List.mem_cons_self ..)

/-- A dash and a letter stand for an option, or for nothing that is known. -/
theorem stands_of_short {a : String} {c : Char} {more : List Char}
    (h : a.toList = '-' :: c :: more) (hkind : Argument.ofChars a.toList = .short c more) :
    Stands a := by
  cases hfind : Level.exportButton.switches.find? fun s => s.short? == some c with
  | none =>
    refine .unknown fun p hlevel hseparated => ?_
    rw [step, hseparated, hkind]
    simp only [hlevel, hfind]
    rfl
  | some s =>
    have hs : s ∈ Level.exportButton.switches := List.mem_of_find?_eq_some hfind
    have hc : s.short? = some c := by simpa using List.find?_some hfind
    have hmark : "-" ++ String.singleton c ∈ s.marks :=
      List.mem_cons_of_mem _ (List.mem_map_of_mem (Option.mem_toList.2 hc))
    refine .option s _
      (fun p hlevel hseparated => step_of_short hlevel hseparated hs hc more h) ?_ ?_
    · intro hvalue
      split_ifs at hvalue with harity
      · exact .inr (Switch.eq_help hs hc harity)
      · cases more with
        | nil =>
          have ha : a = "-" ++ String.singleton c := by
            apply String.toList_injective
            rw [h, Switch.toList_short_mark]
          rw [ha]
          exact .inl hmark
        | cons d cs => exact absurd hvalue (attached?_cons_ne_none d cs)
    · intro v hvalue harity
      rw [if_neg harity] at hvalue
      obtain ⟨cs, rfl, rfl⟩ | ⟨d, cs, hd, rfl, rfl⟩ := attached?_eq_some hvalue
      · have ha : a = "-" ++ String.singleton c ++ "=" ++ String.ofList cs := by
          apply String.toList_injective
          rw [h]
          simp
        rw [ha]
        exact .joined _ harity hmark
      · have ha : a = "-" ++ String.singleton c ++ String.ofList (d :: cs) := by
          apply String.toList_injective
          rw [h]
          simp
        rw [ha]
        exact .attached harity hc hd

theorem stands (a : String) : Stands a := by
  rcases Argument.ofChars_cases a with h | ⟨name, value, h, hkind⟩ | ⟨c, more, h, hkind⟩ | h
  · exact .separator h
  · exact stands_of_long h hkind
  · exact stands_of_short h hkind
  · exact .plain h

end Progress

end ButtonStyle.CommandLine
