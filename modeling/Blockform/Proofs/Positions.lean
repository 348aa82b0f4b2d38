-- SUMMARY: Where the error of a tree that cannot be lowered points to: the first located node from the one that raises it outwards (`lowered_error_position`).
import Blockform.Proofs.Bracketing
import Mathlib.Data.List.Chain

/-!
# Positions of errors

A request that is refused stands inside of nodes, from the one that makes it out
to a statement of the tree (`Request.nodes`). Its refusal passes them on the way
out and takes the position of the first that has a location. Each of them is right
below the next, so this chain is the way from the node that raises the error to
the root of the tree (`Request.LeadsTo`).

An error takes location and span of a node together, and asks only whether it has
a location. A span from a node without a location is therefore given up for that
of the next one, which may have none (`LoweringError.locateAll_position`).
-/

namespace Blockform

variable {options : LowerOptions}

/-! ## Nodes around a request -/

namespace Request

/-- The nodes that a request is made inside of, from the innermost outwards. -/
def nodes : Request → List Node
  | .inside n request => request.nodes ++ [n]
  | .refused _ | .read _ | .bind _ | .call _ | .enter .. | .leave => []

/-- The first of the nodes raises the refusal of the request: it makes the request
    itself, or it is a target or a callee that the node around it does not take. -/
inductive RaisedBy : Request → List Node → Prop where
  | own {r : Request} {n : Node} {outer : List Node}
    (h : r ∈ n.kind.valueAsks ∨ r ∈ n.kind.asks) : RaisedBy r (n :: outer)
  | target {target n value : Node} {outer : List Node} (h : n.kind = .assign [target] value)
    (hname : ∀ id, target.kind ≠ .name id) :
    RaisedBy (.refused ("assignment to a \"" ++ target.kind.title ++ "\" target"))
      (target :: n :: outer)
  | callee {func n : Node} {args outer : List Node} (h : n.kind = .call func args [])
    (hname : ∀ id, func.kind ≠ .name id) :
    RaisedBy (.refused ("calling a \"" ++ func.kind.title ++ "\" expression"))
      (func :: n :: outer)

/-- The nodes around a request lead from the one that raises its refusal out to the
    node, each of them right below the next. -/
structure LeadsTo (r : Request) (n : Node) : Prop where
  linked : r.nodes.IsChain fun m outer => m ∈ outer.kind.parts
  outermost : r.nodes.getLast? = some n
  raised : r.bare.RaisedBy r.nodes

variable {r : Request} {m n : Node}

theorem bare_of_nodes (h : r.nodes = []) : r.bare = r := by
  cases r with
  | inside n r => simp [nodes] at h
  | _ => rfl

theorem RaisedBy.append {ns : List Node} (h : r.RaisedBy ns) (outer : List Node) :
    r.RaisedBy (ns ++ outer) := by
  cases h with
  | own h => exact .own h
  | target h hname => exact .target h hname
  | callee h hname => exact .callee h hname

namespace LeadsTo

/-- A request of a part is led on to the node around it. -/
theorem inside (h : r.LeadsTo m) (hm : m ∈ n.kind.parts) : (Request.inside n r).LeadsTo n where
  linked := by
    refine List.isChain_append.mpr ⟨h.linked, .singleton n, fun m' hm' n' hn' => ?_⟩
    cases h.outermost.symm.trans hm'
    cases hn'
    exact hm
  outermost := List.getLast?_concat
  raised := h.raised.append [n]

/-- A node makes a request itself. -/
theorem own (hr : r ∈ n.kind.valueAsks ∨ r ∈ n.kind.asks) (hnodes : r.nodes = []) :
    (Request.inside n r).LeadsTo n where
  linked := by
    rw [nodes, hnodes]
    exact .singleton n
  outermost := List.getLast?_concat
  raised := by
    rw [bare, bare_of_nodes hnodes, nodes, hnodes]
    exact .own hr

/-- A node makes one request only, itself. -/
theorem single {request : Request}
    (h : n.kind.valueAsks = [request] ∨ n.kind.asks = [request]) (hnodes : request.nodes = [])
    (hr : r ∈ [request]) : (Request.inside n r).LeadsTo n := by
  obtain rfl := List.mem_singleton.mp hr
  refine .own (h.imp ?_ ?_) hnodes
  · exact fun heq => heq.symm ▸ hr
  · exact fun heq => heq.symm ▸ hr

/-- A node does not take one of its parts for a target or a callee. -/
theorem part (hm : m ∈ n.kind.parts) (hnodes : r.nodes = []) (hraised : r.RaisedBy [m, n]) :
    (Request.inside n (.inside m r)).LeadsTo n where
  linked := by
    rw [nodes, nodes, hnodes]
    exact .cons_cons hm (.singleton n)
  outermost := List.getLast?_concat
  raised := by
    rw [bare, bare, bare_of_nodes hnodes, nodes, nodes, hnodes]
    exact hraised

end LeadsTo

end Request

/-! ## Expressions -/

open Request

theorem allValueAsks_eq_flatMap (ns : List Node) :
    allValueAsks ns = ns.flatMap Node.valueAsks := by
  induction ns with
  | nil => rfl
  | cons n rest ih => rw [allValueAsks, ih, List.flatMap_cons]

section Kinds

variable {kind : Kind} {location : Option Location} {span : Option Span} {r : Request}

/-- A kind's requests are its own, or those of its parts, or it is a call of what
    cannot be called. -/
theorem Kind.valueAsks_leadsTo (hparts : ∀ m ∈ kind.parts, ∀ r ∈ m.valueAsks, r.LeadsTo m)
    (hr : r ∈ kind.valueAsks) :
    (Request.inside ⟨kind, location, span⟩ r).LeadsTo ⟨kind, location, span⟩ := by
  have hpart {m : Node} (hm : m ∈ kind.parts) (hr : r ∈ m.valueAsks) :
      (Request.inside ⟨kind, location, span⟩ r).LeadsTo ⟨kind, location, span⟩ :=
    (hparts m hm r hr).inside hm
  have hall {ns : List Node} (hns : ∀ m ∈ ns, m ∈ kind.parts) (hr : r ∈ allValueAsks ns) :
      (Request.inside ⟨kind, location, span⟩ r).LeadsTo ⟨kind, location, span⟩ := by
    rw [allValueAsks_eq_flatMap] at hr
    obtain ⟨m, hm, hr⟩ := List.mem_flatMap.mp hr
    exact hpart (hns m hm) hr
  cases kind with
  | constant value => cases hr
  | unaryOp op operand =>
    cases op with
    | uSub => exact hpart (by simp [parts]) hr
    | uAdd => exact .single (.inl rfl) rfl hr
    | not => exact .single (.inl rfl) rfl hr
    | invert => exact .single (.inl rfl) rfl hr
  | binOp left op right =>
    by_cases hop : op ∈ BinaryOperator.accepted
    · rw [valueAsks, if_pos hop, List.mem_append] at hr
      exact hr.elim (hpart (by simp [parts])) (hpart (by simp [parts]))
    · have hasks : (binOp left op right).valueAsks =
          [.refused ("\"" ++ op.name ++ "\" operator")] := by
        rw [valueAsks, if_neg hop]
      exact .single (.inl hasks) rfl (hasks ▸ hr)
  | boolOp op values =>
    cases values with
    | nil => exact .single (.inl rfl) rfl hr
    | cons first rest =>
      have hr : r ∈ allValueAsks (first :: rest) := hr
      exact hall (by simp [parts]) hr
  | compare left ops rights =>
    rcases ops with - | ⟨op, - | ⟨op', ops⟩⟩
    · exact .single (.inl rfl) rfl hr
    · rcases rights with - | ⟨right, - | ⟨right', rights⟩⟩
      · exact .single (.inl rfl) rfl hr
      · by_cases hop : op ∈ CompareOperator.accepted
        · rw [valueAsks, if_pos hop, List.mem_append] at hr
          exact hr.elim (hpart (by simp [parts])) (hpart (by simp [parts]))
        · have hasks : (compare left [op] [right]).valueAsks =
              [.refused ("\"" ++ op.name ++ "\" operator")] := by
            rw [valueAsks, if_neg hop]
          exact .single (.inl hasks) rfl (hasks ▸ hr)
      · exact .single (.inl rfl) rfl hr
    · exact .single (.inl rfl) rfl hr
  | call func args keywords =>
    cases keywords with
    | cons keyword rest => exact .single (.inl rfl) rfl hr
    | nil =>
      obtain ⟨kind', location', span'⟩ := func
      cases kind' with
      | name id =>
        rcases List.mem_cons.mp hr with rfl | hr
        · exact .own (.inl (List.mem_cons_self ..)) rfl
        · exact hall (fun m hm => by simp [parts, hm]) hr
      | _ =>
        obtain rfl := List.mem_singleton.mp hr
        exact .part (by simp [parts]) rfl (.callee rfl (by simp))
  | _ => exact .single (.inl rfl) rfl hr

theorem Node.valueAsks_leadsTo (n : Node) : ∀ r ∈ n.valueAsks, r.LeadsTo n := by
  induction n using Node.parts_induction with
  | step n ih =>
    obtain ⟨kind, location, span⟩ := n
    intro r hr
    obtain ⟨inner, hinner, rfl⟩ := List.mem_map.mp hr
    exact Kind.valueAsks_leadsTo ih hinner

/-! ## Statements -/

/-- A kind's requests are its own, or those of its parts, or it assigns to what
    cannot be assigned to. -/
theorem Kind.asks_leadsTo (hparts : ∀ m ∈ kind.parts, ∀ r ∈ m.asks, r.LeadsTo m)
    (hr : r ∈ kind.asks) :
    (Request.inside ⟨kind, location, span⟩ r).LeadsTo ⟨kind, location, span⟩ := by
  have hvalue {m : Node} (hm : m ∈ kind.parts) (hr : r ∈ m.valueAsks) :
      (Request.inside ⟨kind, location, span⟩ r).LeadsTo ⟨kind, location, span⟩ :=
    (m.valueAsks_leadsTo r hr).inside hm
  have hblock {ns : List Node} (hns : ∀ m ∈ ns, m ∈ kind.parts) (hr : r ∈ blockAsks ns) :
      (Request.inside ⟨kind, location, span⟩ r).LeadsTo ⟨kind, location, span⟩ := by
    rw [blockAsks_eq_flatMap] at hr
    obtain ⟨m, hm, hr⟩ := List.mem_flatMap.mp hr
    exact (hparts m (hns m hm) r hr).inside (hns m hm)
  have hexpr (hr : r ∈ kind.valueAsks) :
      (Request.inside ⟨kind, location, span⟩ r).LeadsTo ⟨kind, location, span⟩ :=
    Kind.valueAsks_leadsTo (fun m _ => m.valueAsks_leadsTo) hr
  cases kind with
  | assign targets value =>
    match targets with
    | [] => exact .single (.inr rfl) rfl hr
    | [⟨kind', location', span'⟩] =>
      cases kind' with
      | name id =>
        rcases List.mem_append.mp hr with hvalue' | hbind
        · exact hvalue (by simp [parts]) hvalue'
        · obtain rfl := List.mem_singleton.mp hbind
          exact .own (.inr hr) rfl
      | _ =>
        obtain rfl := List.mem_singleton.mp hr
        exact .part (by simp [parts]) rfl (.target rfl (by simp))
    | ⟨kind', location', span'⟩ :: target :: rest =>
      cases kind' <;> exact .single (.inr rfl) rfl hr
  | expr value => exact hvalue (by simp [parts]) hr
  | ret value =>
    cases value with
    | none => cases hr
    | some value => exact hvalue (by simp [parts]) hr
  | ifElse test body orelse =>
    rcases List.mem_append.mp hr with htest | hr
    · exact hvalue (by simp [parts]) htest
    · rcases List.mem_append.mp hr with hbody | helse
      · exact hblock (fun m hm => by simp [parts, hm]) hbody
      · cases orelse with
        | nil => cases helse
        | cons n rest => exact (hparts n (by simp [parts]) r helse).inside (by simp [parts])
  | whileLoop test body orelse =>
    cases orelse with
    | cons n rest => exact .single (.inr rfl) rfl hr
    | nil =>
      rcases List.mem_append.mp hr with htest | hbody
      · exact hvalue (by simp [parts]) htest
      · exact hblock (fun m hm => by simp [parts, hm]) hbody
  | functionDef name params body =>
    rcases List.mem_cons.mp hr with rfl | hinner
    · exact .own (.inr hr) rfl
    · rcases List.mem_append.mp hinner with hbody | hleave
      · exact hblock (fun m hm => by simpa [parts] using hm) hbody
      · obtain rfl := List.mem_singleton.mp hleave
        exact .own (.inr hr) rfl
  | augAssign target op value => exact .single (.inr rfl) rfl hr
  | module body => exact .single (.inr rfl) rfl hr
  | forLoop target iter body orelse => exact .single (.inr rfl) rfl hr
  | pass => exact .single (.inr rfl) rfl hr
  | breakLoop => exact .single (.inr rfl) rfl hr
  | continueLoop => exact .single (.inr rfl) rfl hr
  | _ => exact hexpr hr

theorem Node.asks_leadsTo (n : Node) : ∀ r ∈ n.asks, r.LeadsTo n := by
  induction n using Node.parts_induction with
  | step n ih =>
    obtain ⟨kind, location, span⟩ := n
    intro r hr
    obtain ⟨inner, hinner, rfl⟩ := List.mem_map.mp hr
    exact Kind.asks_leadsTo ih hinner

end Kinds

/-! ## Refusals -/

namespace LoweringError

/-- The error on its way out of some nodes, from the innermost outwards. -/
def locateAll (e : LoweringError) (ns : List Node) : LoweringError := ns.foldl locate e

/-- The node whose position an error without a location takes: the first with a
    location, and the outermost where none has one. -/
def deciding (ns : List Node) : Option Node :=
  (ns.find? (·.location.isSome)).or ns.getLast?

@[simp] theorem locateAll_nil (e : LoweringError) : e.locateAll [] = e := rfl

@[simp] theorem locateAll_cons (e : LoweringError) (n : Node) (ns : List Node) :
    e.locateAll (n :: ns) = (e.locate n).locateAll ns := rfl

theorem locateAll_append (e : LoweringError) (inner outer : List Node) :
    e.locateAll (inner ++ outer) = (e.locateAll inner).locateAll outer :=
  List.foldl_append

theorem locate_of_unlocated {e : LoweringError} (h : e.location = none) (n : Node) :
    e.locate n = { e with location := n.location, span := n.span } :=
  if_pos (by simp [h])

theorem locateAll_of_located {e : LoweringError} (h : e.location.isSome = true)
    (ns : List Node) : e.locateAll ns = e := by
  induction ns with
  | nil => rfl
  | cons n rest ih =>
    have hkept : e.locate n = e := if_neg (by simpa using Option.isSome_iff_ne_none.mp h)
    rw [locateAll_cons, hkept]
    exact ih

@[simp] theorem locateAll_kind (e : LoweringError) (ns : List Node) :
    (e.locateAll ns).kind = e.kind := by
  induction ns generalizing e with
  | nil => rfl
  | cons n rest ih => rw [locateAll_cons, ih, locate_kind]

@[simp] theorem locateAll_message (e : LoweringError) (ns : List Node) :
    (e.locateAll ns).message = e.message := by
  induction ns generalizing e with
  | nil => rfl
  | cons n rest ih => rw [locateAll_cons, ih, locate_message]

/-- The first location decides, and an error's own comes before all others. -/
theorem locateAll_location (e : LoweringError) (ns : List Node) :
    (e.locateAll ns).location = e.location.or (ns.findSome? Node.location) := by
  induction ns generalizing e with
  | nil => simp
  | cons n rest ih =>
    cases h : e.location with
    | some location =>
      rw [locateAll_of_located (by simp [h]), h]
      rfl
    | none =>
      rw [locateAll_cons, locate_of_unlocated h, ih, List.findSome?_cons]
      cases n.location <;> rfl

theorem deciding_cons (n : Node) (ns : List Node) :
    deciding (n :: ns) = if n.location.isSome then some n else (deciding ns).or (some n) := by
  cases h : n.location with
  | some location => simp [deciding, h]
  | none =>
    rw [deciding, deciding, List.find?_cons_of_neg (by simp [h]), List.getLast?_cons]
    cases ns.find? (·.location.isSome) <;> cases ns.getLast? <;> rfl

theorem deciding_of_find? {ns : List Node} {n : Node}
    (h : ns.find? (·.location.isSome) = some n) : deciding ns = some n := by
  rw [deciding, h, Option.some_or]

/-- The span is that of the node that decides, whether it has one or not. -/
theorem locateAll_span {e : LoweringError} (h : e.location = none) (ns : List Node) :
    (e.locateAll ns).span = (deciding ns).elim e.span Node.span := by
  induction ns generalizing e with
  | nil => rfl
  | cons n rest ih =>
    rw [locateAll_cons, locate_of_unlocated h, deciding_cons]
    cases hn : n.location with
    | some location =>
      rw [locateAll_of_located rfl]
      rfl
    | none =>
      rw [ih rfl]
      cases deciding rest <;> rfl

/-- What an error has behind all of the nodes, and when a span that it has by then
    outlasts further nodes: a location was found with it or before it, or the node that
    decides among the others has the same span. -/
theorem locateAll_position (e : LoweringError) (inner outer : List Node) :
    (e.locateAll inner).location = e.location.or (inner.findSome? Node.location) ∧
      (e.locateAll inner).span =
        (if e.location.isSome then e.span else (deciding inner).elim e.span Node.span) ∧
      ((e.locateAll (inner ++ outer)).span = (e.locateAll inner).span ↔
        (e.locateAll inner).location.isSome ∨
          ∀ n, deciding outer = some n → n.span = (e.locateAll inner).span) := by
  refine ⟨locateAll_location e inner, ?_, ?_⟩
  · cases h : e.location with
    | some location =>
      rw [locateAll_of_located (by simp [h])]
      rfl
    | none => exact locateAll_span h inner
  · rw [locateAll_append]
    generalize e.locateAll inner = e'
    cases h : e'.location with
    | some location => simp [locateAll_of_located (e := e') (by simp [h]) outer]
    | none =>
      rw [locateAll_span h]
      cases deciding outer <;> simp

/-- A name with a span and no location. -/
def spannedName : Node :=
  (Node.name "x").withSpan ⟨{ line := 3, column := 8 }, { line := 3, column := 9 }⟩

/-- The return of this name, with a location and no span. -/
def locatedReturn : Node := (Node.ret spannedName).withLocation { line := 3 }

/-- The error of the name has its span until the return around it gives the location. -/
theorem locatedReturn_removes_span :
    ∃ cause error span, lower (.module [locatedReturn]) {} = .error (.error error) ∧
      error = locateAll cause [spannedName, locatedReturn] ∧
      (locateAll cause [spannedName]).span = some span ∧ error.span = none :=
  ⟨.unbound "x" "main", _, _, rfl, rfl, rfl, rfl⟩

end LoweringError

namespace Walk

variable {w : Walk} {r : Request} {e : LoweringError}

/-- A refusal is that of the bare request, on its way out of the nodes around it. -/
theorem step_eq_error (h : w.step options r = .error e) :
    ∃ cause, w.step options r.bare = .error cause ∧ cause.location = none ∧
      e = cause.locateAll r.nodes := by
  induction r generalizing e with
  | inside n r ih =>
    rw [step] at h
    cases hr : w.step options r with
    | ok w' =>
      rw [hr] at h
      cases h
    | error e' =>
      rw [hr] at h
      cases h
      obtain ⟨cause, hcause, hnone, rfl⟩ := ih hr
      refine ⟨cause, hcause, hnone, ?_⟩
      rw [Request.nodes, LoweringError.locateAll, LoweringError.locateAll, List.foldl_append]
      rfl
  | refused what =>
    cases h
    exact ⟨_, rfl, rfl, rfl⟩
  | read name =>
    refine ⟨e, h, ?_, rfl⟩
    simp only [step] at h
    split at h <;> cases h
    rfl
  | bind name => cases h
  | call name =>
    refine ⟨e, h, ?_, rfl⟩
    simp only [step] at h
    split at h
    · cases h
    · split at h <;> cases h
      rfl
  | enter name params =>
    refine ⟨e, h, ?_, rfl⟩
    simp only [step] at h
    split at h <;> cases h
    rfl
  | leave => cases h

/-- A walk ends with the first request that is refused. -/
theorem run_eq_error {rs : List Request} (h : w.run options rs = .error e) :
    ∃ granted r rest w', rs = granted ++ r :: rest ∧ w.run options granted = .ok w' ∧
      w'.step options r = .error e := by
  induction rs generalizing w with
  | nil => cases h
  | cons r rest ih =>
    cases hstep : w.step options r with
    | error e' =>
      rw [run_cons_of_error hstep] at h
      cases h
      exact ⟨[], r, rest, w, rfl, rfl, hstep⟩
    | ok w₁ =>
      rw [run_cons_of_ok hstep] at h
      obtain ⟨granted, r', rest', w', rfl, hgranted, hrefused⟩ := ih h
      exact ⟨r :: granted, r', rest', w', rfl, (run_cons_of_ok hstep granted).trans hgranted,
        hrefused⟩

end Walk

/-! ## Trees -/

variable {tree : Node} {body : List Node} {e : Abort LoweringError}

/-- A module that is not lowered is refused by its walk. -/
theorem lower_module_eq_error (hroot : tree.kind = .module body)
    (h : lower tree options = .error e) :
    ∃ error, Walk.run options (.start options) (blockAsks body) = .error error ∧
      e = .error error := by
  obtain ⟨kind, location, span⟩ := tree
  cases hroot
  have hmodule := Context.lowerModule_follows body options
  cases hrun : Walk.run options (.start options) (blockAsks body) with
  | ok w =>
    rw [hrun] at hmodule
    obtain ⟨id, ctx, hok, -⟩ := hmodule
    rw [lower_of_ok hok] at h
    cases h
  | error error =>
    rw [hrun] at hmodule
    obtain ⟨ctx, hfail⟩ := hmodule
    rw [lower_of_error hfail] at h
    cases h
    exact ⟨error, rfl, rfl⟩

/-- An error points to the innermost located node. The first request of a module that
    is refused stands inside of nodes, from the one that raises the error out to a
    statement of the module. The error has the location of the first of them that has
    one, and the span of that same node. -/
theorem lowered_error_position (hroot : tree.kind = .module body)
    (h : lower tree options = .error e) :
    ∃ granted r rest w cause error,
      blockAsks body = granted ++ r :: rest ∧
      Walk.run options (.start options) granted = .ok w ∧
      w.step options r.bare = .error cause ∧ (∃ n ∈ body, r.LeadsTo n) ∧
      e = .error error ∧ error.kind = cause.kind ∧ error.message = cause.message ∧
      error.location = r.nodes.findSome? Node.location ∧
      ∀ n, r.nodes.find? (·.location.isSome) = some n → error.span = n.span := by
  obtain ⟨error, hrun, rfl⟩ := lower_module_eq_error hroot h
  obtain ⟨granted, r, rest, w, hasks, hgranted, hrefused⟩ := Walk.run_eq_error hrun
  obtain ⟨cause, hcause, hnone, rfl⟩ := Walk.step_eq_error hrefused
  have hlocation := cause.locateAll_location r.nodes
  have hspan := LoweringError.locateAll_span hnone r.nodes
  have hmem : r ∈ blockAsks body := hasks ▸ List.mem_append_right _ (List.mem_cons_self ..)
  rw [blockAsks_eq_flatMap] at hmem
  obtain ⟨n, hn, hr⟩ := List.mem_flatMap.mp hmem
  refine ⟨granted, r, rest, w, cause, _, hasks, hgranted, hcause, ⟨n, hn, n.asks_leadsTo r hr⟩, rfl,
    cause.locateAll_kind r.nodes, cause.locateAll_message r.nodes, ?_, fun m hm => ?_⟩
  · rw [hlocation, hnone, Option.none_or]
  · rw [hspan, LoweringError.deciding_of_find? hm]
    rfl

/-- A sum of a name without a position, which is not known. -/
def unknownSum : Node :=
  let start : Location := { line := 3, column := 8 }
  let finish : Location := { line := 3, column := 13 }
  ((Node.binop (.name "x") .add (.int 1)).withLocation start).withSpan ⟨start, finish⟩

/-- A module that returns this sum, from a line with a position of its own. -/
def unknownTree : Node := .module [(Node.ret unknownSum).withLocation { line := 3 }]

/-- The error that the name raises has the position of the sum around it, and not that
    of the return. -/
theorem unknownTree_error_position :
    ∃ error, lower unknownTree {} = .error (.error error) ∧
      error.location = unknownSum.location ∧ error.span = unknownSum.span := by
  have hfails : (lower unknownTree {}).toBool = false := by decide +kernel
  cases h : lower unknownTree {} with
  | ok p =>
    rw [h] at hfails
    cases hfails
  | error e =>
    obtain ⟨granted, r, rest, w, cause, error, hasks, -, -, -, rfl, -, -, hlocation, hspan⟩ :=
      lowered_error_position rfl h
    refine ⟨error, rfl, ?_⟩
    -- The name is read, and nothing else is asked for.
    cases granted with
    | cons g gs =>
      obtain ⟨-, hrest⟩ := List.cons.inj hasks
      exact absurd hrest.symm (List.append_ne_nil_of_right_ne_nil _ (List.cons_ne_nil _ _))
    | nil =>
      obtain ⟨rfl, -⟩ := List.cons.inj hasks
      exact ⟨hlocation, hspan unknownSum rfl⟩

end Blockform
