import ButtonStyle.Proofs.Files
import ButtonStyle.Proofs.Procedure

/-!
# The requests of a procedure

While it runs, a procedure makes requests of the system.  What it prints and what it puts on the
clipboard are among them (`printed`, `copied`).

Some procedures make no request of a certain kind, whatever the answers to the others are (`Avoids`).
So **a procedure that makes neither directories nor files leaves every file as it is**
(`content?_of_avoids`), if what the system gives out goes elsewhere.
-/

namespace ButtonStyle

variable {α β σ : Type}

/-- A request to the system. -/
inductive Request
  | holds (path : Path)
  | read (path : Path)
  | makeParents (path : Path)
  | write (path : Path) (content : ByteArray)
  | print (text : String)
  | copy (text : String)

namespace Request

/-- The text that is to be printed, if one is. -/
def printed? : Request → Option String
  | print text => some text
  | _ => none

/-- The text that is to be copied, if one is. -/
def copied? : Request → Option String
  | copy text => some text
  | _ => none

/-- Whether a file or directory may be made or changed. -/
def changesFiles : Request → Bool
  | makeParents _ | write .. => true
  | _ => false

end Request

namespace Procedure

/-- The requests that a procedure makes on a system, in their order. -/
def requests (system : System σ) : Procedure α → σ → List Request
  | done _, _ => []
  | holds p next, s => .holds p :: (next (system.holds p s)).requests system s
  | read p next, s => .read p :: (next (system.read p s)).requests system s
  | makeParents p next, s =>
    let (r, t) := system.makeParents p s
    .makeParents p :: (next r).requests system t
  | write p content next, s =>
    let (r, t) := system.write p content s
    .write p content :: (next r).requests system t
  | print text next, s =>
    let (r, t) := system.print text s
    .print text :: (next r).requests system t
  | copy text next, s =>
    let (r, t) := system.copy text s
    .copy text :: (next r).requests system t

/-- The texts that a procedure prints. -/
def printed (system : System σ) (p : Procedure α) (s : σ) : List String :=
  (p.requests system s).filterMap Request.printed?

/-- The texts that a procedure puts on the clipboard, or would if the system let it. -/
def copied (system : System σ) (p : Procedure α) (s : σ) : List String :=
  (p.requests system s).filterMap Request.copied?

section Bind

variable (system : System σ) (p : Procedure α) (f : α → Procedure β) (s : σ)

/-- A second procedure makes its requests after those of the first. -/
theorem requests_bind : (p >>= f).requests system s =
    p.requests system s ++
      (f (p.run system s).1).requests system (p.run system s).2 := by
  show (p.andThen f).requests system s = _
  induction p generalizing s with
  | done a => rfl
  | holds _ _ ih | read _ _ ih | makeParents _ _ ih | print _ _ ih | copy _ _ ih =>
    exact congrArg (_ :: ·) (ih _ _)
  | write _ _ _ ih => exact congrArg (_ :: ·) (ih _ _)

theorem printed_bind : (p >>= f).printed system s =
    p.printed system s ++ (f (p.run system s).1).printed system (p.run system s).2 := by
  rw [printed, requests_bind, List.filterMap_append, printed, printed]

theorem copied_bind : (p >>= f).copied system s =
    p.copied system s ++ (f (p.run system s).1).copied system (p.run system s).2 := by
  rw [copied, requests_bind, List.filterMap_append, copied, copied]

theorem printed_bind_pure (g : α → β) :
    (p >>= fun a => pure (g a)).printed system s = p.printed system s := by
  rw [printed_bind]
  exact List.append_nil _

theorem copied_bind_pure (g : α → β) :
    (p >>= fun a => pure (g a)).copied system s = p.copied system s := by
  rw [copied_bind]
  exact List.append_nil _

end Bind

/-! ### Requests that are not made -/

/-- A procedure makes no request of a kind, whatever the answers are. -/
def Avoids (kind : Request → Bool) : Procedure α → Prop
  | done _ => True
  | holds p next => kind (.holds p) = false ∧ ∀ r, (next r).Avoids kind
  | read p next => kind (.read p) = false ∧ ∀ r, (next r).Avoids kind
  | makeParents p next => kind (.makeParents p) = false ∧ ∀ r, (next r).Avoids kind
  | write p content next => kind (.write p content) = false ∧ ∀ r, (next r).Avoids kind
  | print text next => kind (.print text) = false ∧ ∀ r, (next r).Avoids kind
  | copy text next => kind (.copy text) = false ∧ ∀ r, (next r).Avoids kind

section Avoids

variable {kind : Request → Bool}

theorem avoids_pure (a : α) : (pure a : Procedure α).Avoids kind := trivial

theorem Avoids.bind {p : Procedure α} {f : α → Procedure β} (hp : p.Avoids kind)
    (hf : ∀ a, (f a).Avoids kind) : (p >>= f).Avoids kind := by
  show (p.andThen f).Avoids kind
  induction p with
  | done a => exact hf a
  | holds _ _ ih | read _ _ ih | makeParents _ _ ih | print _ _ ih | copy _ _ ih =>
    exact ⟨hp.1, fun r => ih r (hp.2 r)⟩
  | write _ _ _ ih => exact ⟨hp.1, fun r => ih r (hp.2 r)⟩

/-- To ask what there is and to read files is all that a procedure does that only asks. -/
theorem OnlyAsks.avoids {p : Procedure α} (h : p.OnlyAsks)
    (hholds : ∀ p, kind (.holds p) = false) (hread : ∀ p, kind (.read p) = false) :
    p.Avoids kind := by
  induction p with
  | done a => trivial
  | holds p _ ih => exact ⟨hholds p, fun r => ih r (h r)⟩
  | read p _ ih => exact ⟨hread p, fun r => ih r (h r)⟩
  | makeParents | write | print | copy => exact h.elim

/-- The requests that are avoided are not made. -/
theorem eq_false_of_mem_requests {p : Procedure α} (h : p.Avoids kind) (system : System σ) (s : σ) :
    ∀ r ∈ p.requests system s, kind r = false := by
  induction p generalizing s with
  | done a => exact nofun
  | holds _ _ ih | read _ _ ih | makeParents _ _ ih | print _ _ ih | copy _ _ ih =>
    exact List.forall_mem_cons.2 ⟨h.1, ih _ (h.2 _) _⟩
  | write _ _ _ ih => exact List.forall_mem_cons.2 ⟨h.1, ih _ (h.2 _) _⟩

theorem printed_of_avoids {p : Procedure α} (h : p.Avoids fun r => r.printed?.isSome)
    (system : System σ) (s : σ) : p.printed system s = [] := by
  refine List.filterMap_eq_nil_iff.2 fun r hr => ?_
  simpa using eq_false_of_mem_requests h system s r hr

theorem copied_of_avoids {p : Procedure α} (h : p.Avoids fun r => r.copied?.isSome)
    (system : System σ) (s : σ) : p.copied system s = [] := by
  refine List.filterMap_eq_nil_iff.2 fun r hr => ?_
  simpa using eq_false_of_mem_requests h system s r hr

/-- What is asked before a procedure prints is of no importance for what it prints. -/
theorem printed_bind_of_onlyAsks {p : Procedure α} (h : p.OnlyAsks) (f : α → Procedure β)
    (system : System σ) (s : σ) :
    (p >>= f).printed system s = (f (p.run system s).1).printed system s := by
  have hnone : p.printed system s = [] :=
    printed_of_avoids (h.avoids (fun _ => rfl) fun _ => rfl) system s
  have hstate : (p.run system s).2 = s := congrArg Prod.snd (run_of_onlyAsks h system s)
  rw [printed_bind, hnone, hstate, List.nil_append]

/-- What is asked before a procedure copies is of no importance for what it copies. -/
theorem copied_bind_of_onlyAsks {p : Procedure α} (h : p.OnlyAsks) (f : α → Procedure β)
    (system : System σ) (s : σ) :
    (p >>= f).copied system s = (f (p.run system s).1).copied system s := by
  have hnone : p.copied system s = [] :=
    copied_of_avoids (h.avoids (fun _ => rfl) fun _ => rfl) system s
  have hstate : (p.run system s).2 = s := congrArg Prod.snd (run_of_onlyAsks h system s)
  rw [copied_bind, hnone, hstate, List.nil_append]

end Avoids

end Procedure

/-! ### What is given out -/

/-- What is printed and copied goes elsewhere than to the file of a path. -/
structure System.GivesOutBeside (system : System σ) (p : Path) : Prop where
  print : ∀ text s, system.content? p (system.print text s).2 = system.content? p s
  copy : ∀ text s, system.content? p (system.copy text s).2 = system.content? p s

/-- **A procedure that makes neither directories nor files leaves a file as it is.** -/
theorem Procedure.content?_of_avoids {system : System σ} {path : Path}
    (hbeside : system.GivesOutBeside path) {p : Procedure α} (h : p.Avoids Request.changesFiles)
    (s : σ) : system.content? path (p.run system s).2 = system.content? path s := by
  induction p generalizing s with
  | done a => rfl
  | holds _ _ ih | read _ _ ih => exact ih _ (h.2 _) s
  | makeParents | write => exact absurd h.1 Bool.noConfusion
  | print text _ ih => exact (ih _ (h.2 _) _).trans (hbeside.print text s)
  | copy text _ ih => exact (ih _ (h.2 _) _).trans (hbeside.copy text s)

/-- A desk keeps what is printed and copied apart from its disk. -/
theorem Desk.givesOutBeside (p : Path) : Desk.system.GivesOutBeside p where
  print text d := by
    have hdisk : (Desk.system.print text d).2.disk = d.disk := by
      show (d.print text).2.disk = d.disk
      unfold Desk.print
      split <;> rfl
    rw [content?_eq, content?_eq, hdisk]
  copy text d := by
    have hdisk : (Desk.system.copy text d).2.disk = d.disk := by
      show (d.copy text).2.disk = d.disk
      unfold Desk.copy
      split <;> rfl
    rw [content?_eq, content?_eq, hdisk]

end ButtonStyle
