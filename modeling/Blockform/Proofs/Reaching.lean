-- SUMMARY: Machines that attain what a computation means (`Machine.Attains`).
import Blockform.Proofs.Meaning
import Blockform.Proofs.Turns

/-!
# Runs that attain a result

A machine attains the result of a computation if it gets to a state that agrees
with the value, or halts with an error of the kind that the computation raises.
If the computation has no result, the machine must go on for as many steps as
there was fuel (`Machine.Attains`). Such runs are put together as computations
are (`Attains.bind`), so that a proof about a construct never counts steps.
-/

namespace Blockform

namespace Machine

variable {p : Program} {limits : ExecOptions} {m m₁ m' : Machine} {n k : Nat}

/-! ## Attaining a result -/

variable {σ α β : Type} {bound bound' : Nat} {post : α → Machine → Prop}
  {post' : β → Machine → Prop}

/-- The machine gets to a state of some kind in a number of steps. -/
def GetsIn (p : Program) (limits : ExecOptions) (n : Nat) (post : Machine → Prop) (m : Machine) :
    Prop :=
  ∃ m', Reaches p limits n m m' ∧ post m'

/-- The machine gets to a state of some kind. -/
def Gets (p : Program) (limits : ExecOptions) (post : Machine → Prop) (m : Machine) : Prop :=
  ∃ n m', Reaches p limits n m m' ∧ post m'

/-- The machine does what a result says: it gets to a state that agrees with the
    value, fails with an error of the kind, or goes on for a number of steps. -/
def Attains (p : Program) (limits : ExecOptions) (bound : Nat) (post : α → Machine → Prop)
    (m : Machine) : Option (Except ExecErrorKind α) → Prop
  | none => ∃ m', Reaches p limits bound m m'
  | some (.error kind) => ∃ n m₁ e m', Reaches p limits n m m₁ ∧
      m₁.advance p limits = .halted (.error (.error e)) m' ∧ e.kind = kind
  | some (.ok a) => Gets p limits (post a) m

namespace GetsIn

variable {post post' : Machine → Prop}

theorem gets (h : GetsIn p limits n post m) : Gets p limits post m := ⟨n, h⟩

theorem done (h : post m) : GetsIn p limits 0 post m := ⟨m, .refl m, h⟩

theorem step (hstep : m.advance p limits = .running m₁) (h : post m₁) :
    GetsIn p limits 1 post m :=
  ⟨m₁, .step hstep (.refl m₁), h⟩

theorem andThen (h : GetsIn p limits n post m)
    (hrest : ∀ m₁, post m₁ → GetsIn p limits k post' m₁) : GetsIn p limits (n + k) post' m := by
  obtain ⟨m₁, hreaches, hpost⟩ := h
  obtain ⟨m', hreaches', hpost'⟩ := hrest m₁ hpost
  exact ⟨m', hreaches.trans hreaches', hpost'⟩

end GetsIn

theorem Gets.done {post : Machine → Prop} (h : post m) : Gets p limits post m :=
  ⟨0, m, .refl m, h⟩

theorem Gets.step {post : Machine → Prop} (hstep : m.advance p limits = .running m₁)
    (h : post m₁) : Gets p limits post m :=
  ⟨1, m₁, .step hstep (.refl m₁), h⟩

theorem Gets.andThen {post post' : Machine → Prop} (h : Gets p limits post m)
    (hrest : ∀ m₁, post m₁ → Gets p limits post' m₁) : Gets p limits post' m := by
  obtain ⟨n, m₁, hreaches, hpost⟩ := h
  obtain ⟨k, m', hreaches', hpost'⟩ := hrest m₁ hpost
  exact ⟨n + k, m', hreaches.trans hreaches', hpost'⟩

namespace Attains

variable {r : Option (Except ExecErrorKind α)}

theorem done {a : α} (h : post a m) : Attains p limits bound post m (some (.ok a)) :=
  Gets.done h

theorem failed {e : ExecError} (h : m.advance p limits = .halted (.error (.error e)) m') :
    Attains p limits bound post m (some (.error e.kind)) :=
  ⟨0, m, e, m', .refl m, h, rfl⟩

/-- A step on the way: it counts. -/
theorem step (hstep : m.advance p limits = .running m₁) (h : Attains p limits bound post m₁ r) :
    Attains p limits (bound + 1) post m r := by
  match r, h with
  | none, ⟨m', hreaches⟩ => exact ⟨m', .step hstep hreaches⟩
  | some (.error kind), ⟨n, m₂, e, m', hreaches, hrest⟩ =>
    exact ⟨n + 1, m₂, e, m', .step hstep hreaches, hrest⟩
  | some (.ok a), ⟨n, m', hreaches, hpost⟩ => exact ⟨n + 1, m', .step hstep hreaches, hpost⟩

/-- Less may be asked of a run. -/
theorem mono {post' : α → Machine → Prop} (h : Attains p limits bound post m r)
    (hbound : bound' ≤ bound) (hpost : ∀ a m', post a m' → post' a m') :
    Attains p limits bound' post' m r := by
  match r, h with
  | none, ⟨m', hreaches⟩ => exact hreaches.shorten hbound
  | some (.error kind), hfailed => exact hfailed
  | some (.ok a), ⟨n, m', hreaches, ha⟩ => exact ⟨n, m', hreaches, hpost a m' ha⟩

/-- A step on the way that need not be counted. -/
theorem next (hstep : m.advance p limits = .running m₁) (h : Attains p limits bound post m₁ r) :
    Attains p limits bound post m r :=
  (step hstep h).mono (Nat.le_succ bound) fun _ _ => id

/-- What comes first leaves its time to what comes next. -/
theorem after {post₁ : Machine → Prop} (h : Gets p limits post₁ m)
    (hrest : ∀ m₁, post₁ m₁ → Attains p limits bound post m₁ r) :
    Attains p limits bound post m r := by
  obtain ⟨n, m₁, hreaches, hpost⟩ := h
  match r, hrest m₁ hpost with
  | none, ⟨m', hlasts⟩ => exact (hreaches.trans hlasts).shorten (Nat.le_add_left ..)
  | some (.error kind), ⟨k, m₂, e, m', hlasts, hend⟩ =>
    exact ⟨n + k, m₂, e, m', hreaches.trans hlasts, hend⟩
  | some (.ok a), ⟨k, m', hlasts, ha⟩ => exact ⟨n + k, m', hreaches.trans hlasts, ha⟩

/-- From a state that agrees with the value, the machine goes on as asked. -/
theorem andThen {r' : Option (Except ExecErrorKind β)} (h : Attains p limits bound post m r)
    (hok : ∀ a, r = some (.ok a) → ∀ m', post a m' → Attains p limits bound post' m' r')
    (herror : ∀ kind, r = some (.error kind) → r' = some (.error kind))
    (hnone : r = none → r' = none) :
    Attains p limits bound post' m r' := by
  match r, h with
  | none, hlasts =>
    rw [hnone rfl]
    exact hlasts
  | some (.error kind), hfailed =>
    rw [herror kind rfl]
    exact hfailed
  | some (.ok a), hgets => exact after hgets (hok a rfl)

/-- More is made of a value, without any change to what is computed. -/
theorem extend {post' : α → Machine → Prop} (h : Attains p limits bound post m r)
    (hok : ∀ a m', post a m' → Gets p limits (post' a) m') : Attains p limits bound post' m r := by
  refine h.andThen (fun a ha m' hpost => ?_) (fun _ => id) id
  rw [ha]
  exact hok a m' hpost

/-- Runs are put together as what they attain is. -/
theorem bind {x : Meaning σ α} {f : α → Meaning σ β} {s : σ} {post : α × σ → Machine → Prop}
    {post' : β × σ → Machine → Prop} (h : Attains p limits bound post m (x s))
    (hf : ∀ a s' m', post (a, s') m' → Attains p limits bound post' m' (f a s')) :
    Attains p limits bound post' m ((x >>= f) s) := by
  refine h.andThen (fun (a, s') ha m' hpost => ?_) (fun kind he => ?_) (fun hnone => ?_)
  · rw [Meaning.bind_of_ok ha]
    exact hf a s' m' hpost
  · exact Meaning.bind_of_error he f
  · exact Meaning.bind_of_none hnone f

end Attains

/-! ## Limits -/

/-- A step does not depend on the number of steps that are allowed. -/
theorem advance_maxSteps (p : Program) (limits : ExecOptions) (m : Machine) (maxSteps : UInt64) :
    m.advance p { limits with maxSteps } = m.advance p limits := by
  cases hrest : m.frame.rest with
  | nil => rw [advance_nil hrest, advance_nil hrest]
  | cons op rest =>
    rw [advance_cons hrest, advance_cons hrest]
    cases op <;> rfl

theorem Reaches.maxSteps (h : Reaches p limits n m m') (maxSteps : UInt64) :
    Reaches p { limits with maxSteps } n m m' := by
  induction h with
  | refl m => exact .refl m
  | step hstep _ ih => exact .step ((advance_maxSteps ..).trans hstep) ih

end Machine

end Blockform
