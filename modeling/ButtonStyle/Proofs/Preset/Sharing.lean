import Mathlib.Logic.Function.Basic
import ButtonStyle.Button.Standard
import ButtonStyle.Proofs.Preset.Store

/-!
# Stores that share a file

Any number of stores may have the same file, and each of them may read it again or save a preset at
any time.  Each call is one step.  What holds of the next call of a store, after any calls of any of
them, is `SharedStores.Reliable`; the main result is that it holds always (`reliable_run`), as long
as the buttons that are saved hold numbers only.
-/

namespace ButtonStyle

/-- A call of a store. -/
inductive StoreCall
  | reload
  | save (name : String) (button : Button)

/-- Whether the button that a call saves, if it saves one, holds numbers only. -/
def StoreCall.IsFinite : StoreCall → Prop
  | reload => True
  | save _ b => Button.shape.all Quantity.isFinite b = true

/-- Stores on one system. -/
structure SharedStores (ι σ : Type) where
  store : ι → PresetStore
  state : σ

namespace SharedStores

variable {ι σ : Type} [DecidableEq ι]

/-- A call of one of the stores: its fault, if there is one, and how things are then. -/
def call (system : System σ) (now : SharedStores ι σ) (i : ι) :
    StoreCall → Option StoreFault × SharedStores ι σ
  | .reload =>
    let ((store, fault?), state) := (now.store i).reload.run system now.state
    (fault?, ⟨Function.update now.store i store, state⟩)
  | .save name b =>
    match ((now.store i).save name b).run system now.state with
    | (.ok store, state) => (none, ⟨Function.update now.store i store, state⟩)
    | (.error fault, state) => (some fault, ⟨now.store, state⟩)

/-- How things are after calls of the stores. -/
def run (system : System σ) (now : SharedStores ι σ) : List (ι × StoreCall) → SharedStores ι σ
  | [] => now
  | (i, c) :: calls => run system (now.call system i c).2 calls

/-- The lists of all stores hold numbers only. -/
def AreFinite (now : SharedStores ι σ) : Prop := ∀ i, Preset.AreFinite (now.store i).presets

/-- Reading the file of a store gives just the list of the store. -/
def Agrees (system : System σ) (now : SharedStores ι σ) (i : ι) : Prop :=
  (PresetStore.readList (now.store i).path).run system now.state =
    (.ok (now.store i).presets, now.state)

/-- What can be relied on when a store that shares the file of `p` makes a call. -/
structure Reliable (system : System σ) (p : Path) (now : SharedStores ι σ) (i : ι) : Prop where
  /-- A preset that is saved is last in the list of the store, and the file holds that list. -/
  save : ∀ name b next, Button.shape.all Quantity.isFinite b = true →
    now.call system i (.save name b) = (none, next) →
      (next.store i).presets = (now.store i).presets ++ [⟨name, b⟩] ∧ next.Agrees system i ∧
        ∀ j ≠ i, next.store j = now.store j
  /-- The list that is read is that of the file, which may not be there. -/
  reload : ∀ next, now.call system i .reload = (none, next) →
    next.Agrees system i ∧ next.state = now.state ∧
      (system.holds p now.state = false → (next.store i).presets = []) ∧
      ∀ j ≠ i, next.store j = now.store j
  /-- A call that fails changes neither a store nor the file. -/
  failure : ∀ c fault next, now.call system i c = (some fault, next) →
    next.store = now.store ∧ system.content? p next.state = system.content? p now.state
  /-- A preset has a name. -/
  emptyName : ∀ b, now.call system i (.save "" b) = (some .emptyName, now)
  /-- When only one store makes calls, its list is that of the file and only grows at its end, once
  it has been read. -/
  alone : ∀ next, now.call system i .reload = (none, next) → ∀ calls more : List StoreCall,
    (∀ c ∈ calls ++ more, c.IsFinite) → (next.run system (calls.map (i, ·))).Agrees system i ∧
      ((next.run system (calls.map (i, ·))).store i).presets <+:
        ((next.run system ((calls ++ more).map (i, ·))).store i).presets

section Calls

variable {system : System σ} {now : SharedStores ι σ} {i : ι}

omit [DecidableEq ι] in
theorem agrees_iff : now.Agrees system i ↔
    PresetStore.listOf (now.store i).path (system.content? (now.store i).path now.state) =
      .ok (now.store i).presets := by
  rw [Agrees, PresetStore.run_readList, Prod.mk.injEq, and_iff_left rfl]

/-- Reading the file again takes its list, or fails and changes nothing. -/
theorem reload_cases (system : System σ) (now : SharedStores ι σ) (i : ι) :
    (∃ presets, PresetStore.listOf (now.store i).path
          (system.content? (now.store i).path now.state) = .ok presets ∧
        now.call system i .reload =
          (none, ⟨Function.update now.store i { now.store i with presets }, now.state⟩)) ∨
      ∃ fault, PresetStore.listOf (now.store i).path
          (system.content? (now.store i).path now.state) = .error fault ∧
        now.call system i .reload = (some fault, now) := by
  rw [call, PresetStore.run_reload]
  cases PresetStore.listOf (now.store i).path (system.content? (now.store i).path now.state) with
  | ok presets => exact .inl ⟨presets, rfl, rfl⟩
  | error fault =>
    refine .inr ⟨fault, rfl, ?_⟩
    simp only [Function.update_eq_self]

/-- A save writes the longer list, or fails and leaves the file as it was. -/
theorem save_cases (h : system.KeepsFile (now.store i).path) (name : String) (b : Button) :
    (∃ state, now.call system i (.save name b) = (none,
          ⟨Function.update now.store i
            { now.store i with presets := (now.store i).presets ++ [⟨name, b⟩] }, state⟩) ∧
        system.content? (now.store i).path state =
          some (.ok (Preset.listText ((now.store i).presets ++ [⟨name, b⟩])).toUTF8)) ∨
      ∃ fault state, now.call system i (.save name b) = (some fault, ⟨now.store, state⟩) ∧
        system.content? (now.store i).path state =
          system.content? (now.store i).path now.state := by
  rw [call]
  rcases PresetStore.save_cases h name b now.state with
    ⟨fault, state, hrun, hcontent⟩ | ⟨state, -, hrun, hcontent⟩
  · rw [hrun]
    exact .inr ⟨fault, state, rfl, hcontent⟩
  · rw [hrun]
    exact .inl ⟨state, rfl, hcontent⟩

/-! ### One call -/

/-- A store keeps its path. -/
theorem path_call (h : system.KeepsFile (now.store i).path) (c : StoreCall) (j : ι) :
    ((now.call system i c).2.store j).path = (now.store j).path := by
  have hupdate : ∀ presets, (Function.update now.store i { now.store i with presets } j).path =
      (now.store j).path := by
    intro presets
    by_cases hj : j = i
    · rw [hj, Function.update_self]
    · rw [Function.update_of_ne hj]
  cases c with
  | reload =>
    rcases reload_cases system now i with ⟨presets, -, hcall⟩ | ⟨fault, -, hcall⟩
    · rw [hcall]
      exact hupdate presets
    · rw [hcall]
  | save name b =>
    rcases save_cases h name b with ⟨state, hcall, -⟩ | ⟨fault, state, hcall, -⟩
    · rw [hcall]
      exact hupdate _
    · rw [hcall]

/-- A store that has just read its file agrees with it. -/
theorem agrees_of_reload {next : SharedStores ι σ}
    (h : now.call system i .reload = (none, next)) :
    next.Agrees system i ∧ next.state = now.state ∧
      (system.holds (now.store i).path now.state = false → (next.store i).presets = []) ∧
      ∀ j ≠ i, next.store j = now.store j := by
  rcases reload_cases system now i with ⟨presets, hlist, hcall⟩ | ⟨fault, -, hcall⟩
  · rw [hcall] at h
    cases h
    refine ⟨?_, rfl, fun hholds => ?_, fun j hj => Function.update_of_ne hj _ _⟩
    · rw [agrees_iff]
      simpa using hlist
    · rw [System.content?, hholds] at hlist
      simpa [PresetStore.listOf] using hlist.symm
  · rw [hcall] at h
    cases h

omit [DecidableEq ι] in
/-- A store that agrees with its file holds numbers only. -/
theorem areFinite_of_agrees (h : now.Agrees system i) : Preset.AreFinite (now.store i).presets :=
  PresetStore.areFinite_of_listOf (agrees_iff.1 h)

/-- A store that has just saved a preset agrees with its file. -/
theorem agrees_of_save (hkeeps : system.KeepsFile (now.store i).path)
    (hfinite : Preset.AreFinite (now.store i).presets) {name : String} {b : Button}
    (hb : Button.shape.all Quantity.isFinite b = true) {next : SharedStores ι σ}
    (h : now.call system i (.save name b) = (none, next)) :
    (next.store i).presets = (now.store i).presets ++ [⟨name, b⟩] ∧ next.Agrees system i ∧
      ∀ j ≠ i, next.store j = now.store j := by
  rcases save_cases hkeeps name b with ⟨state, hcall, hcontent⟩ | ⟨fault, state, hcall, -⟩
  · rw [hcall] at h
    cases h
    refine ⟨by simp, ?_, fun j hj => Function.update_of_ne hj _ _⟩
    have hlonger : Preset.AreFinite ((now.store i).presets ++ [⟨name, b⟩]) :=
      Preset.areFinite_concat.2 ⟨hfinite, hb⟩
    rw [agrees_iff]
    simpa [hcontent] using (PresetStore.listOf_text_iff (now.store i).path _).2 hlonger
  · rw [hcall] at h
    cases h

/-- A call that fails changes neither a store nor the file. -/
theorem unchanged_of_fault (hkeeps : system.KeepsFile (now.store i).path) {c : StoreCall}
    {fault : StoreFault} {next : SharedStores ι σ} (h : now.call system i c = (some fault, next)) :
    next.store = now.store ∧
      system.content? (now.store i).path next.state =
        system.content? (now.store i).path now.state := by
  cases c with
  | reload =>
    rcases reload_cases system now i with ⟨presets, -, hcall⟩ | ⟨fault, -, hcall⟩
    · rw [hcall] at h
      cases h
    · rw [hcall] at h
      cases h
      exact ⟨rfl, rfl⟩
  | save name b =>
    rcases save_cases hkeeps name b with ⟨state, hcall, -⟩ | ⟨fault, state, hcall, hcontent⟩
    · rw [hcall] at h
      cases h
    · rw [hcall] at h
      cases h
      exact ⟨rfl, hcontent⟩

/-- **A store that agrees with its file still does so after a call of its own**, and its list has
only grown at its end. -/
theorem agrees_call (hkeeps : system.KeepsFile (now.store i).path) (h : now.Agrees system i)
    {c : StoreCall} (hc : c.IsFinite) :
    (now.call system i c).2.Agrees system i ∧
      (now.store i).presets <+: ((now.call system i c).2.store i).presets := by
  obtain ⟨fault?, next, hcall⟩ : ∃ fault? next, now.call system i c = (fault?, next) :=
    ⟨_, _, rfl⟩
  rw [hcall]
  cases fault? with
  | some fault =>
    obtain ⟨hstore, hcontent⟩ := unchanged_of_fault hkeeps hcall
    rw [agrees_iff] at h ⊢
    simp only [hstore, hcontent]
    exact ⟨h, List.prefix_refl _⟩
  | none =>
    cases c with
    | save name b =>
      obtain ⟨hpresets, hagrees, -⟩ := agrees_of_save hkeeps (areFinite_of_agrees h) hc hcall
      rw [hpresets]
      exact ⟨hagrees, List.prefix_append _ _⟩
    | reload =>
      obtain ⟨hagrees, hstate, -, -⟩ := agrees_of_reload hcall
      refine ⟨hagrees, ?_⟩
      have hpath := path_call hkeeps .reload i
      rw [hcall] at hpath
      -- The file is as it was, and so the list that is read is the one that is held.
      rw [agrees_iff] at h hagrees
      rw [hpath, hstate, h] at hagrees
      have hpresets : (now.store i).presets = (next.store i).presets := Except.ok.inj hagrees
      exact hpresets ▸ List.prefix_refl _

/-- Buttons that hold numbers only leave no others in the lists. -/
theorem areFinite_call (hkeeps : system.KeepsFile (now.store i).path) (h : now.AreFinite)
    {c : StoreCall} (hc : c.IsFinite) : (now.call system i c).2.AreFinite := by
  have hupdate (presets : List Preset) (state : σ) (hpresets : Preset.AreFinite presets) :
      AreFinite ⟨Function.update now.store i { now.store i with presets }, state⟩ := by
    intro j
    by_cases hj : j = i
    · simpa [hj] using hpresets
    · simpa [Function.update_of_ne hj] using h j
  cases c with
  | reload =>
    rcases reload_cases system now i with ⟨presets, hlist, hcall⟩ | ⟨fault, -, hcall⟩
    · rw [hcall]
      exact hupdate presets _ (PresetStore.areFinite_of_listOf hlist)
    · rwa [hcall]
  | save name b =>
    rcases save_cases hkeeps name b with ⟨state, hcall, -⟩ | ⟨fault, state, hcall, -⟩
    · rw [hcall]
      exact hupdate _ _ (Preset.areFinite_concat.2 ⟨h i, hc⟩)
    · rw [hcall]
      exact h

/-! ### Runs of calls -/

theorem run_append (now : SharedStores ι σ) (calls more : List (ι × StoreCall)) :
    now.run system (calls ++ more) = (now.run system calls).run system more := by
  induction calls generalizing now with
  | nil => rfl
  | cons c calls ih => exact ih _

/-- All stores keep their paths. -/
theorem path_run {p : Path} (hkeeps : system.KeepsFile p) (hpath : ∀ j, (now.store j).path = p)
    (calls : List (ι × StoreCall)) (j : ι) : ((now.run system calls).store j).path = p := by
  induction calls generalizing now with
  | nil => exact hpath j
  | cons c calls ih =>
    refine ih fun k => ?_
    rw [path_call (by rwa [hpath]) c.2 k, hpath]

/-- The lists of all stores still hold numbers only. -/
theorem areFinite_run {p : Path} (hkeeps : system.KeepsFile p)
    (hpath : ∀ j, (now.store j).path = p) (h : now.AreFinite) {calls : List (ι × StoreCall)}
    (hcalls : ∀ c ∈ calls, c.2.IsFinite) : (now.run system calls).AreFinite := by
  induction calls generalizing now with
  | nil => exact h
  | cons c calls ih =>
    obtain ⟨hc, hcalls⟩ := List.forall_mem_cons.1 hcalls
    have hkeeps' : system.KeepsFile (now.store c.1).path := by rwa [hpath]
    refine ih (fun j => ?_) (areFinite_call hkeeps' h hc) hcalls
    rw [path_call hkeeps' c.2 j, hpath]

/-- A store that agrees with its file does so after any calls of its own, and its list has only
grown at its end. -/
theorem agrees_run {p : Path} (hkeeps : system.KeepsFile p) (hpath : ∀ j, (now.store j).path = p)
    (h : now.Agrees system i) {calls : List StoreCall} (hcalls : ∀ c ∈ calls, c.IsFinite) :
    (now.run system (calls.map (i, ·))).Agrees system i ∧
      (now.store i).presets <+: ((now.run system (calls.map (i, ·))).store i).presets := by
  induction calls generalizing now with
  | nil => exact ⟨h, List.prefix_refl _⟩
  | cons c calls ih =>
    have hkeeps' : system.KeepsFile (now.store i).path := by rwa [hpath]
    obtain ⟨hc, hcalls⟩ := List.forall_mem_cons.1 hcalls
    obtain ⟨hagrees, hgrown⟩ := agrees_call hkeeps' h hc
    have hpath' : ∀ j, ((now.call system i c).2.store j).path = p := fun j => by
      rw [path_call hkeeps' c j, hpath]
    obtain ⟨hagrees', hgrown'⟩ := ih hpath' hagrees hcalls
    exact ⟨hagrees', hgrown.trans hgrown'⟩

end Calls

/-- **Whatever calls stores that share a file have made, the next one can be relied on**, if all
buttons hold numbers only. -/
theorem reliable_run {system : System σ} {p : Path} (hkeeps : system.KeepsFile p)
    (start : SharedStores ι σ) (hpath : ∀ j, (start.store j).path = p) (hstart : start.AreFinite)
    (calls : List (ι × StoreCall)) (hcalls : ∀ c ∈ calls, c.2.IsFinite) (i : ι) :
    (start.run system calls).Reliable system p i := by
  have hpath' := path_run hkeeps hpath calls
  have hfinite := areFinite_run hkeeps hpath hstart hcalls
  generalize start.run system calls = now at hpath' hfinite
  have hkeeps' : system.KeepsFile (now.store i).path := by rwa [hpath']
  constructor
  case save =>
    intro name b next hb h
    exact agrees_of_save hkeeps' (hfinite i) hb h
  case reload =>
    intro next h
    have hreload := agrees_of_reload h
    rwa [hpath'] at hreload
  case failure =>
    intro c fault next h
    have hfailure := unchanged_of_fault hkeeps' h
    rwa [hpath'] at hfailure
  case emptyName =>
    intro b
    rw [call, PresetStore.run_save_of_isEmpty system (now.store i) rfl]
  case alone =>
    intro next h first more hcalls
    obtain ⟨hfirst, hmore⟩ := List.forall_mem_append.1 hcalls
    have hnext : ∀ j, (next.store j).path = p := fun j => by
      have hcall := path_call hkeeps' .reload j
      rw [h] at hcall
      rw [hcall, hpath']
    obtain ⟨hagrees, -⟩ := agrees_run hkeeps hnext (agrees_of_reload h).1 hfirst
    refine ⟨hagrees, ?_⟩
    rw [List.map_append, run_append]
    exact (agrees_run hkeeps (path_run hkeeps hnext _) hagrees hmore).2

/-- Two stores of one desk, the second of which has been read before the first saves a preset. -/
theorem reliable_two_stores :
    ((SharedStores.mk (fun _ => ⟨Desk.presetsPath, []⟩) {} : SharedStores Bool Desk).run Desk.system
        [(false, .reload), (true, .save "first" .standard)]).Reliable
      Desk.system Desk.presetsPath false := by
  refine reliable_run Desk.keepsFile_presetsPath _ (fun _ => rfl)
    (fun _ => Preset.areFinite_nil) _ ?_ false
  simp [StoreCall.IsFinite, Button.isFinite_standard]

end SharedStores

end ButtonStyle
