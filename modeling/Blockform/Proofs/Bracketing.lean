-- SUMMARY: What a tree asks for is bracketed (`Bracketed`): each body is left before the one around it goes on, so nothing but names goes in or out.
import Blockform.Proofs.Compiling

/-!
# Bracketed requests

A function inside another one has names of its own, and the body around it goes
on afterwards as if nothing had been there. So far as bodies go, a walk through
a definition therefore ends where it started. What else one may be refused for is
that its function, or one inside of it, has been begun before. Whether a walk
comes to its end thus depends on the names that the innermost body knows and on
the functions that were begun (`Bracketed.run_beside`), provided that callees are
declared where they are missing.
-/

namespace Blockform

variable {options : LowerOptions}

/-! ## Brackets -/

/-- The request, without the nodes that it is a request of. -/
def Request.bare : Request → Request
  | .inside _ request => request.bare
  | request => request

theorem Request.enters_bare (r : Request) : r.bare.enters = r.enters := by
  induction r with
  | inside n r ih => exact ih
  | _ => rfl

/-- Bodies are entered and left in turn, and none is left that was not entered. -/
inductive Bracketed : List Request → Prop where
  | nil : Bracketed []
  | plain {r : Request} {rest : List Request} (hr : r.isPlain = true) (hrest : Bracketed rest) :
    Bracketed (r :: rest)
  | body {enter left : Request} {name : String} {params : List String}
    {inner rest : List Request} (henter : enter.bare = .enter name params)
    (hleave : left.bare = .leave) (hinner : Bracketed inner) (hrest : Bracketed rest) :
    Bracketed (enter :: (inner ++ left :: rest))

namespace Bracketed

variable {rs xs ys : List Request}

theorem append (hx : Bracketed xs) (hy : Bracketed ys) : Bracketed (xs ++ ys) := by
  induction hx with
  | nil => exact hy
  | plain hr _ ih => exact .plain hr ih
  | body henter hleave hinner _ _ ih =>
    rw [List.cons_append, List.append_assoc, List.cons_append]
    exact .body henter hleave hinner ih

theorem inside (h : Bracketed rs) (n : Node) : Bracketed (rs.map (.inside n)) := by
  induction h with
  | nil => exact .nil
  | plain hr _ ih => exact .plain hr ih
  | body henter hleave _ _ ihinner ihrest =>
    rw [List.map_cons, List.map_append, List.map_cons]
    exact .body henter hleave ihinner ihrest

theorem of_isPlain (h : rs.all Request.isPlain = true) : Bracketed rs := by
  induction rs with
  | nil => exact .nil
  | cons r rest ih =>
    rw [List.all_cons, Bool.and_eq_true] at h
    exact .plain h.1 (ih h.2)

end Bracketed

/-! ## Trees -/

theorem blockAsks_eq_flatMap (ns : List Node) : blockAsks ns = ns.flatMap Node.asks := by
  induction ns with
  | nil => rfl
  | cons n rest ih => rw [blockAsks, ih, List.flatMap_cons]

theorem Node.valueAsks_bracketed (n : Node) : Bracketed n.valueAsks :=
  .of_isPlain n.valueAsks_isPlain

theorem blockAsks_bracketed {ns : List Node} (hns : ∀ n ∈ ns, Bracketed n.asks) :
    Bracketed (blockAsks ns) := by
  induction ns with
  | nil => exact .nil
  | cons n rest ih =>
    rw [List.forall_mem_cons] at hns
    exact hns.1.append (ih hns.2)

theorem elseAsks_bracketed {ns : List Node} (hns : ∀ n ∈ ns, Bracketed n.asks) :
    Bracketed (elseAsks ns) := by
  cases ns with
  | nil => exact .nil
  | cons n rest => exact hns n (List.mem_cons_self ..)

theorem Kind.asks_bracketed {k : Kind} (hparts : ∀ n ∈ k.parts, Bracketed n.asks) :
    Bracketed k.asks := by
  have hvalue : Bracketed k.valueAsks :=
    .of_isPlain (Kind.valueAsks_isPlain fun n _ => n.valueAsks_isPlain)
  have hrefused (what : String) : Bracketed [.refused what] := .plain rfl .nil
  cases k with
  | assign targets value =>
    match targets with
    | [] => exact hrefused _
    | [⟨kind, location, span⟩] =>
      cases kind with
      | name id => exact value.valueAsks_bracketed.append (.plain rfl .nil)
      | _ => exact .plain rfl .nil
    | ⟨kind, location, span⟩ :: target :: rest => cases kind <;> exact hrefused _
  | expr value => exact value.valueAsks_bracketed
  | ret value =>
    cases value with
    | none => exact .nil
    | some value => exact value.valueAsks_bracketed
  | ifElse test body orelse =>
    have hbody := blockAsks_bracketed fun n (hn : n ∈ body) => hparts n (by simp [parts, hn])
    have horelse := elseAsks_bracketed fun n (hn : n ∈ orelse) => hparts n (by simp [parts, hn])
    exact test.valueAsks_bracketed.append (hbody.append horelse)
  | whileLoop test body orelse =>
    cases orelse with
    | cons n rest => exact hrefused _
    | nil =>
      have hbody := blockAsks_bracketed fun n (hn : n ∈ body) => hparts n (by simp [parts, hn])
      exact test.valueAsks_bracketed.append hbody
  | functionDef name params body =>
    have hbody := blockAsks_bracketed fun n (hn : n ∈ body) => hparts n (by simp [parts, hn])
    exact .body rfl rfl hbody .nil
  | augAssign target op value => exact hrefused _
  | module body => exact hrefused _
  | forLoop target iter body orelse => exact hrefused _
  | pass => exact hrefused _
  | breakLoop => exact hrefused _
  | continueLoop => exact hrefused _
  | _ => exact hvalue

theorem Node.asks_bracketed (n : Node) : Bracketed n.asks := by
  induction n using Node.parts_induction with
  | step n ih =>
    obtain ⟨kind, location, span⟩ := n
    exact (Kind.asks_bracketed ih).inside ⟨kind, location, span⟩

/-! ## Walks -/

namespace Walk

variable {v v' w w' : Walk} {r : Request} {rs xs ys : List Request}

/-- The functions that the requests begin are distinct, and none has been begun
    before. -/
structure Fresh (w : Walk) (rs : List Request) : Prop where
  distinct : (rs.filterMap Request.enters).Nodup
  unbegun : ∀ name ∈ rs.filterMap Request.enters, name ∉ w.begun

theorem run_cons_eq_ok :
    w.run options (r :: rs) = .ok w' ↔
      ∃ w₁, w.step options r = .ok w₁ ∧ w₁.run options rs = .ok w' := by
  cases hstep : w.step options r with
  | ok w₁ => simp [run_cons_of_ok hstep]
  | error e => simp [run_cons_of_error hstep]

theorem run_append_eq_ok :
    w.run options (xs ++ ys) = .ok w' ↔
      ∃ w₁, w.run options xs = .ok w₁ ∧ w₁.run options ys = .ok w' := by
  cases hrun : w.run options xs with
  | ok w₁ => simp [run_append_of_ok hrun]
  | error e => simp [run_append_of_error hrun]

/-- The position of a refusal is of no concern to what is granted. -/
theorem step_bare : w.step options r = .ok w' ↔ w.step options r.bare = .ok w' := by
  induction r generalizing w' with
  | inside n r ih =>
    rw [Request.bare, ← ih, step]
    cases w.step options r <;> simp
  | _ => exact Iff.rfl

theorem Fresh.of_append (h : w.Fresh (xs ++ ys)) : w.Fresh xs := by
  obtain ⟨hdistinct, hunbegun⟩ := h
  rw [List.filterMap_append] at hdistinct hunbegun
  exact ⟨(List.nodup_append.mp hdistinct).1, fun name hname =>
    hunbegun name (List.mem_append_left _ hname)⟩

theorem Fresh.after (h : w.Fresh (xs ++ ys)) (hrun : w.run options xs = .ok w') : w'.Fresh ys := by
  obtain ⟨hdistinct, hunbegun⟩ := h
  rw [List.filterMap_append] at hdistinct hunbegun
  obtain ⟨-, hys, hdisjoint⟩ := List.nodup_append.mp hdistinct
  refine ⟨hys, fun name hname hbegun => ?_⟩
  rcases (run_names hrun).1.mp hbegun with hbegun | hxs
  · exact hunbegun name (List.mem_append_right _ hname) hbegun
  · exact hdisjoint name hxs name hname rfl

theorem Fresh.tail (h : w.Fresh (r :: rs)) (hstep : w.step options r = .ok w') : w'.Fresh rs :=
  have hrun : w.run options [r] = .ok w' := by rw [run_singleton, hstep]
  h.after hrun

/-- A function that is begun has not been begun before. -/
theorem step_enters {name : String} (h : w.step options r = .ok w')
    (henters : r.enters = some name) : name ∉ w.begun := by
  induction r generalizing w' with
  | inside n r ih =>
    rw [step] at h
    cases hr : w.step options r with
    | error e =>
      rw [hr] at h
      cases h
    | ok w₁ => exact ih hr henters
  | enter other params =>
    cases henters
    intro hbegun
    rw [step, if_pos hbegun] at h
    cases h
  | _ => cases henters

/-- A walk that comes to its end begins no function twice. -/
theorem fresh_of_run (h : w.run options rs = .ok w') : w.Fresh rs := by
  induction rs generalizing w with
  | nil => exact ⟨.nil, nofun⟩
  | cons r rest ih =>
    obtain ⟨w₁, hstep, hrest⟩ := run_cons_eq_ok.mp h
    obtain ⟨hdistinct, hunbegun⟩ := ih hrest
    have hbegun (name : String) : name ∈ w₁.begun ↔ name ∈ w.begun ∨ r.enters = some name :=
      (step_names hstep).1
    have hold : ∀ name ∈ rest.filterMap Request.enters, name ∉ w.begun := fun name hname hw =>
      hunbegun name hname ((hbegun name).mpr (.inl hw))
    cases henters : r.enters with
    | none =>
      have hlist : (r :: rest).filterMap Request.enters = rest.filterMap Request.enters := by
        simp [henters]
      exact ⟨hlist ▸ hdistinct, hlist ▸ hold⟩
    | some entered =>
      have hlist : (r :: rest).filterMap Request.enters =
          entered :: rest.filterMap Request.enters := by simp [henters]
      have hnew : entered ∉ rest.filterMap Request.enters := fun hmem =>
        hunbegun entered hmem ((hbegun entered).mpr (.inr henters))
      refine ⟨hlist ▸ List.nodup_cons.mpr ⟨hnew, hdistinct⟩, ?_⟩
      rw [hlist, List.forall_mem_cons]
      exact ⟨step_enters hstep henters, hold⟩

/-! ### Plain requests -/

/-- A plain request stays inside the innermost body. -/
theorem step_outer_of_isPlain (hr : r.isPlain = true) (h : w.step options r = .ok w') :
    w'.outer = w.outer := by
  induction r generalizing w' with
  | inside n r ih =>
    rw [step] at h
    cases hstep : w.step options r with
    | error e =>
      rw [hstep] at h
      cases h
    | ok w₁ =>
      rw [hstep] at h
      cases h
      exact ih hr hstep
  | refused what => cases h
  | read name =>
    simp only [step] at h
    split at h <;> cases h
    rfl
  | bind name =>
    cases h
    exact bind_outer w name
  | call name =>
    simp only [step] at h
    split at h
    · cases h
      rfl
    · split at h <;> cases h
      exact register_outer w name
  | enter name params => cases hr
  | leave => cases hr

/-- Whether a plain request is granted depends on the innermost body alone. -/
theorem step_of_isPlain (hauto : options.autoDeclareCallees = true) (hr : r.isPlain = true)
    (h : v.step options r = .ok v') (hbody : w.body = v.body) :
    ∃ w', w.step options r = .ok w' ∧ w'.body = v'.body := by
  induction r generalizing v' with
  | inside n r ih =>
    simp only [step] at h ⊢
    cases hstep : v.step options r with
    | error e =>
      rw [hstep] at h
      cases h
    | ok v₁ =>
      rw [hstep] at h
      cases h
      obtain ⟨w', hw', hbody'⟩ := ih hr hstep
      rw [hw']
      exact ⟨w', rfl, hbody'⟩
  | refused what => cases h
  | read name =>
    simp only [step] at h ⊢
    rw [hbody]
    split at h <;> cases h
    rename_i hknown
    rw [if_pos hknown]
    exact ⟨w, rfl, hbody⟩
  | bind name =>
    cases h
    refine ⟨_, rfl, ?_⟩
    unfold bind
    rw [hbody]
    split
    · exact hbody
    · rfl
  | call name =>
    have hv : v'.body = v.body := by
      simp only [step, hauto, if_true] at h
      split at h <;> cases h
      · rfl
      · exact register_body v name
    simp only [step, hauto, if_true, hv]
    split
    · exact ⟨w, rfl, hbody⟩
    · exact ⟨_, rfl, (register_body w name).trans hbody⟩
  | enter name params => cases hr
  | leave => cases hr

/-! ### Bodies -/

theorem step_enter {name : String} {params : List String} (hr : r.bare = .enter name params) :
    w.step options r = .ok w' ↔ name ∉ w.begun ∧ w' = w.enter name params := by
  rw [step_bare, hr, step]
  split
  · rename_i hbegun
    simp [hbegun]
  · rename_i hbegun
    simp [hbegun, eq_comm]

theorem step_leave (hr : r.bare = .leave) : w.step options r = .ok w' ↔ w' = w.leave := by
  rw [step_bare, hr, step]
  simp [eq_comm]

/-- The body that was entered is left again, for the one around it. -/
theorem leave_of_outer {body : Body} {outer : List Body} (h : w.outer = body :: outer) :
    w.leave.body = body ∧ w.leave.outer = outer := by
  unfold leave
  rw [h]
  exact ⟨rfl, rfl⟩

end Walk

namespace Bracketed

open Walk

variable {v v' w w' : Walk} {rs : List Request}

/-- The bodies around the innermost one are the same afterwards. -/
theorem run_outer (h : Bracketed rs) (hrun : w.run options rs = .ok w') : w'.outer = w.outer := by
  induction h generalizing w w' with
  | nil =>
    cases hrun
    rfl
  | plain hr _ ih =>
    obtain ⟨w₁, hstep, hrest⟩ := run_cons_eq_ok.mp hrun
    exact (ih hrest).trans (step_outer_of_isPlain hr hstep)
  | body henter hleave _ _ ihinner ihrest =>
    obtain ⟨w₁, hstep, hrun⟩ := run_cons_eq_ok.mp hrun
    obtain ⟨w₂, hinner, hrun⟩ := run_append_eq_ok.mp hrun
    obtain ⟨w₃, hstep', hrest⟩ := run_cons_eq_ok.mp hrun
    obtain ⟨-, rfl⟩ := (step_enter henter).mp hstep
    obtain rfl := (step_leave hleave).mp hstep'
    exact (ihrest hrest).trans (leave_of_outer (ihinner hinner)).2

/-- The rule for a whole body: it can be walked through from anywhere if what it
    asks for can be walked through from its own start. -/
theorem body_anywhere {enter left : Request} {name : String} {params : List String}
    {inner : List Request} (henter : enter.bare = .enter name params) (hleave : left.bare = .leave)
    (hinner : Bracketed inner)
    (hbeside : ∀ {v v' w : Walk}, v.run options inner = .ok v' → w.body = v.body →
      w.Fresh inner → ∃ w', w.run options inner = .ok w' ∧ w'.body = v'.body)
    (hrun : v.run options (enter :: (inner ++ [left])) = .ok v')
    (hfresh : w.Fresh (enter :: (inner ++ [left]))) :
    ∃ w', w.run options (enter :: (inner ++ [left])) = .ok w' ∧ w'.body = w.body := by
  obtain ⟨v₁, hstep, hrun⟩ := run_cons_eq_ok.mp hrun
  obtain ⟨v₂, hv₂, -⟩ := run_append_eq_ok.mp hrun
  obtain ⟨-, rfl⟩ := (step_enter henter).mp hstep
  have hunbegun : name ∉ w.begun := by
    refine hfresh.unbegun name ?_
    have hname : enter.enters = some name := by rw [← Request.enters_bare, henter]; rfl
    simp [hname]
  have hstep' : w.step options enter = .ok (w.enter name params) :=
    (step_enter henter).mpr ⟨hunbegun, rfl⟩
  -- The body starts with the same names, whatever is around it.
  obtain ⟨w₂, hw₂, -⟩ := hbeside (w := w.enter name params) hv₂ rfl (hfresh.tail hstep').of_append
  obtain ⟨hbody, -⟩ := leave_of_outer (hinner.run_outer hw₂)
  refine ⟨w₂.leave, run_cons_eq_ok.mpr ⟨_, hstep', run_append_eq_ok.mpr ⟨w₂, hw₂, ?_⟩⟩, hbody⟩
  rw [run_singleton]
  exact (step_leave hleave).mpr rfl

/-- A walk can be taken from anywhere with the same innermost body, unless one of
    the functions has been begun there, and leads to the same body. -/
theorem run_beside (hauto : options.autoDeclareCallees = true) (h : Bracketed rs)
    (hrun : v.run options rs = .ok v') (hbody : w.body = v.body) (hfresh : w.Fresh rs) :
    ∃ w', w.run options rs = .ok w' ∧ w'.body = v'.body := by
  induction h generalizing v v' w with
  | nil =>
    cases hrun
    exact ⟨w, rfl, hbody⟩
  | plain hr _ ih =>
    obtain ⟨v₁, hstep, hrest⟩ := run_cons_eq_ok.mp hrun
    obtain ⟨w₁, hstep', hbody₁⟩ := step_of_isPlain hauto hr hstep hbody
    obtain ⟨w', hrest', hbody'⟩ := ih hrest hbody₁ (hfresh.tail hstep')
    exact ⟨w', run_cons_eq_ok.mpr ⟨w₁, hstep', hrest'⟩, hbody'⟩
  | @body enter left name params inner rest henter hleave hinner _ ihinner ihrest =>
    have hsplit : enter :: (inner ++ left :: rest) = enter :: (inner ++ [left]) ++ rest := by simp
    rw [hsplit] at hrun hfresh ⊢
    obtain ⟨v₁, hv₁, hrest⟩ := run_append_eq_ok.mp hrun
    have hanywhere {w : Walk} := body_anywhere (w := w) henter hleave hinner ihinner hv₁
    obtain ⟨_, hsame, hbody₁⟩ := hanywhere (fresh_of_run hv₁)
    cases hv₁.symm.trans hsame
    obtain ⟨w₁, hw₁, hbody₁'⟩ := hanywhere hfresh.of_append
    obtain ⟨w', hrest', hbody'⟩ := ihrest hrest (by rw [hbody₁, hbody₁', hbody]) (hfresh.after hw₁)
    exact ⟨w', run_append_eq_ok.mpr ⟨w₁, hw₁, hrest'⟩, hbody'⟩

end Bracketed

end Blockform
