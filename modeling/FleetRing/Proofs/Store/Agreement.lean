import FleetRing.Proofs.Store.Batch

/-!
# Node stores that agree on some stores

Two node stores with one plan may differ in most of their stores and agree on a few. An update
that reaches one of these few is applied by both or by neither, and they agree afterwards
(`AgreeOn.absorb`); one that reaches none of them changes none of them, so it may be left out on
one side (`agreeOn_absorb`). Which stores these are is up to the caller: those that a client was
handed, or those of a location.
-/

namespace FleetRing

namespace NodeStore

variable {mine : List Nat} {one two three store : NodeStore} {update : Update}

/-- Is an update routed to one of these stores? -/
def reaches (store : NodeStore) (mine : List Nat) (update : Update) : Bool :=
  (store.route? update.node.id update.location).any (· ∈ mine)

/-- That depends on nothing but the plan. -/
theorem reaches_eq (ring : one.ring = two.ring) (perLocation : one.perLocation = two.perLocation)
    (mine : List Nat) : one.reaches mine = two.reaches mine := by
  funext update
  simp only [reaches, route?, locate?, ring, perLocation]

/-- Updates are routed in the same way, and these stores are the same. -/
structure AgreeOn (mine : List Nat) (one two : NodeStore) : Prop where
  ring : one.ring = two.ring
  perLocation : one.perLocation = two.perLocation
  stores : ∀ k ∈ mine, one.stores[k]? = two.stores[k]?

namespace AgreeOn

theorem refl (mine : List Nat) (store : NodeStore) : AgreeOn mine store store :=
  ⟨rfl, rfl, fun _ _ => rfl⟩

theorem symm (agree : AgreeOn mine one two) : AgreeOn mine two one :=
  ⟨agree.ring.symm, agree.perLocation.symm, fun k member => (agree.stores k member).symm⟩

theorem trans (first : AgreeOn mine one two) (second : AgreeOn mine two three) :
    AgreeOn mine one three :=
  ⟨first.ring.trans second.ring, first.perLocation.trans second.perLocation,
    fun k member => (first.stores k member).trans (second.stores k member)⟩

theorem route? (agree : AgreeOn mine one two) (id : String) (location : Location) :
    one.route? id location = two.route? id location := by
  simp only [NodeStore.route?, locate?, agree.ring, agree.perLocation]

/-- The same of these stores applies an update that reaches them. -/
theorem acceptor? (agree : AgreeOn mine one two) (reached : one.reaches mine update = true) :
    one.acceptor? update = two.acceptor? update := by
  obtain ⟨k, routed, member⟩ := (Option.any_eq_true _ _).mp reached
  have member : k ∈ mine := of_decide_eq_true member
  simp only [NodeStore.acceptor?, ← agree.route?, routed, agree.stores k member]

/-- An update that reaches these stores leaves them the same. -/
theorem absorb (agree : AgreeOn mine one two) (reached : one.reaches mine update = true) :
    AgreeOn mine (one.absorb update) (two.absorb update) := by
  have same := agree.acceptor? reached
  cases accepted : one.acceptor? update with
  | none =>
    rw [absorb_of_refused accepted, absorb_of_refused (same.symm.trans accepted)]
    exact agree
  | some k =>
    obtain ⟨target, routed, here, -, left⟩ := absorb_of_accepted accepted
    obtain ⟨other, -, there, -, right⟩ := absorb_of_accepted (same.symm.trans accepted)
    have member : k ∈ mine := by simpa [reaches, routed] using reached
    obtain rfl : target = other :=
      Option.some.inj (here.symm.trans ((agree.stores k member).trans there))
    rw [left, right]
    refine ⟨agree.ring, agree.perLocation, fun i asked => ?_⟩
    rw [getElem?_replace here, getElem?_replace there, agree.stores i asked]

end AgreeOn

/-- An update that does not reach these stores is applied by none of them, -/
theorem acceptor?_of_unreached (unreached : store.reaches mine update = false) :
    (store.acceptor? update).any (· ∈ mine) = false := by
  cases accepted : store.acceptor? update with
  | none => rfl
  | some k =>
    obtain ⟨-, routed, -⟩ := absorb_of_accepted accepted
    simpa [reaches, routed] using unreached

/-- and leaves them as they are. -/
theorem agreeOn_absorb (unreached : store.reaches mine update = false) :
    AgreeOn mine (store.absorb update) store := by
  have elsewhere := acceptor?_of_unreached unreached
  have plan := samePlan_absorb store update
  refine ⟨plan.ring, plan.perLocation, fun i asked => ?_⟩
  cases accepted : store.acceptor? update with
  | none => rw [absorb_of_refused accepted]
  | some k =>
    obtain ⟨target, -, here, -, same⟩ := absorb_of_accepted accepted
    rw [accepted] at elsewhere
    have other : i ≠ k := by
      rintro rfl
      simp [asked] at elsewhere
    rw [same, getElem?_replace here, if_neg other]

end NodeStore

end FleetRing
