import SheepScene.Proofs.Scene.Endings
import SheepScene.Proofs.Scene.Fostering
import SheepScene.Proofs.Scene.Parenting

/-!
# What a sweep leaves

A sweep takes the actors that are flagged for removal out of a scene, one after the other, whatever
links there are between them and to others. Taking out one of them leaves all the others as they
are but for their links to it (`World.Relieved`), and this adds up (`World.Relieved.trans`): the
order does not matter, and no link between two actors that stay is lost or doubled.
-/

set_option autoImplicit false

namespace SheepScene

variable {K B : Type}

namespace World

/-- Detaching changes only links and matrices. -/
theorem onlyLinks_detach (w : World K B) (e : EntityId) : OnlyLinks w (w.detach e) := by
  have cut : OnlyLinks w (w.cut e) :=
    (onlyLinks_leave w e).trans (onlyLinks_modifyTransform _ e fun _ => rfl)
  exact cut.trans (AgreesOn.foldl
    (fun v e => (onlyLinks_linkUp v e none).trans (onlyLinks_invalidate _ e)) _)

/-! ## Taking entities out -/

/-- What a world is like after some entities have been taken out of it: they have gone, nobody has
them as parents or children any more, and they are off the list. Apart from that the others keep
their links, with their children in order, and all but matrices. -/
structure Relieved (w w' : World K B) (out : EntityId → Bool) : Prop where
  size : w'.entities.size = w.entities.size
  gone : ∀ x, out x = true → w'.entity? x = none
  kept : ∀ x, out x = false →
    (w'.entity? x).map Entity.unlinked = (w.entity? x).map Entity.unlinked
  parents : ∀ x, out x = false → w'.parent? x = (w.parent? x).filter fun p => !out p
  children : ∀ x, out x = false → w'.children x = (w.children x).filter fun c => !out c
  actors : w'.actors = w.actors.filter fun x => !out x
  /-- Handles may be let go of, and the journal goes on. -/
  rest : w' = { w with
    entities := w'.entities, roster := w'.roster, waits := w'.waits, journal := w'.journal }

variable {w v w' : World K B} {out more : EntityId → Bool}

namespace Relieved

/-- Nothing is taken out of a world when remarks are written into its journal. -/
theorem of_journal (journal : w' = { w with journal := w'.journal }) :
    w.Relieved w' fun _ => false := by
  have everyone : ∀ l : List EntityId, l.filter (fun _ => !false) = l := fun l =>
    List.filter_eq_self.2 fun _ _ => rfl
  rw [journal]
  refine ⟨rfl, nofun, fun x _ => rfl, fun x _ => ?_, fun x _ => (everyone _).symm,
    (everyone _).symm, rfl⟩
  change w.parent? x = _
  cases w.parent? x <;> rfl

/-- Taking out some entities and then others is taking out all of them. -/
theorem trans (h : w.Relieved v out) (h' : v.Relieved w' more) :
    w.Relieved w' fun x => out x || more x := by
  have lists : ∀ l : List EntityId, (l.filter fun x => !out x).filter (fun x => !more x)
      = l.filter fun x => !(out x || more x) := by
    intro l
    rw [List.filter_filter]
    exact List.filter_congr fun x _ => by rw [Bool.not_or, Bool.and_comm]
  have apart : ∀ {x}, (out x || more x) = false → out x = false ∧ more x = false :=
    fun hx => Bool.or_eq_false_iff.1 hx
  refine ⟨h'.size.trans h.size, fun x hx => ?_, fun x hx => ?_, fun x hx => ?_, fun x hx => ?_,
    by rw [h'.actors, h.actors, lists], by rw [h'.rest, h.rest]⟩
  · cases late : more x with
    | true => exact h'.gone x late
    | false =>
      have same := h'.kept x late
      rw [late, Bool.or_false] at hx
      rw [h.gone x hx, Option.map_none, Option.map_eq_none_iff] at same
      exact same
  · exact (h'.kept x (apart hx).2).trans (h.kept x (apart hx).1)
  · rw [h'.parents x (apart hx).2, h.parents x (apart hx).1]
    cases w.parent? x with
    | none => rfl
    | some p => cases out p <;> simp
  · rw [h'.children x (apart hx).2, h.children x (apart hx).1, lists]

section Kept

variable (h : w.Relieved w' out) {x : EntityId} (stays : out x = false)
include h stays

/-- Actors that stay are as they were. -/
theorem actor? : w'.actor? x = w.actor? x := by
  have same := congrArg (Option.bind · fun shown => shown.1) (h.kept x stays)
  simpa only [Option.bind_map, Function.comp_def, Entity.unlinked, World.actor?] using same

/-- The places that stay are the places that there were. -/
theorem isSome_transform? : (w'.transform? x).isSome = (w.transform? x).isSome := by
  have same := congrArg (fun o => (Option.bind o fun shown => shown.2.2.2).isSome) (h.kept x stays)
  have shown : ∀ o : Option (Entity K B), ((o.map Entity.unlinked).bind fun s => s.2.2.2).isSome
      = (o.bind (·.transform)).isSome := by
    rintro (_ | entity)
    · rfl
    · exact Option.isSome_map
  rwa [shown, shown] at same

end Kept

/-- Who was taken out has no children. -/
theorem children_of_out (h : w.Relieved w' out) {x : EntityId} (gone : out x = true) :
    w'.children x = [] := by
  rw [children_eq, transform?, h.gone x gone]
  rfl

/-- The links that are left are those between entities that stay. -/
theorem parent?_eq_some_iff (h : w.Relieved w' out) {x p : EntityId} :
    w'.parent? x = some p ↔ out x = false ∧ out p = false ∧ w.parent? x = some p := by
  cases gone : out x with
  | true =>
    rw [parent?, transform?, h.gone x gone]
    simp
  | false =>
    rw [h.parents x gone, Option.filter_eq_some_iff, Bool.not_eq_true', and_comm]
    exact (and_iff_right rfl).symm

/-- What is left of a tree that is linked well is linked well. -/
theorem wellLinked (h : w.Relieved w' out) (links : w.WellLinked) : w'.WellLinked := by
  have above : w'.Above ≤ w.Above := fun x p up => (h.parent?_eq_some_iff.1 up).2.2
  refine ⟨fun x p => ?_, fun p => ?_, fun x cycle => ?_⟩
  · rw [h.parent?_eq_some_iff]
    cases gone : out p with
    | true =>
      rw [h.children_of_out gone]
      exact iff_of_false (fun both => nomatch both.2.1) nofun
    | false =>
      rw [h.children p gone, List.mem_filter, links.linked, Bool.not_eq_true']
      exact ⟨fun ⟨stays, _, child⟩ => ⟨child, stays⟩, fun ⟨child, stays⟩ => ⟨stays, rfl, child⟩⟩
  · cases gone : out p with
    | true =>
      rw [h.children_of_out gone]
      exact .nil
    | false =>
      rw [h.children p gone]
      exact (links.nodup p).filter _
  · exact links.acyclic x (Relation.TransGen.mono above x x cycle)

end Relieved

/-- Taking one entity out of a scene, which has a place. -/
theorem Traceable.relieved (h : w.Traceable) (fostered : w.Fostered) {d : EntityId}
    (place : (w.transform? d).isSome) : w.Relieved (w.reclaim d) (· == d) := by
  refine ⟨(size_despawn _ d).trans (onlyPlaces_detach w d).size, fun x hx => ?_, fun x hx => ?_,
    fun x hx => ?_, fun x hx => ?_, ?_, ?_⟩
  · rw [entity?_reclaim, if_pos (eq_of_beq hx)]
  · rw [entity?_reclaim, if_neg (ne_of_beq_false hx)]
    exact (onlyLinks_detach w d).entity x
  · rw [parent?_reclaim, parent?_detach]
    cases up : w.parent? x with
    | none => split <;> rfl
    | some p =>
      by_cases here : p = d
      · subst here
        rw [if_pos (.inr (fostered.child x p up place)), Option.filter_some, beq_self_eq_true]
        rfl
      · have stays : (!p == d) = true := bne_iff_ne.2 here
        rw [if_neg, Option.filter_some, if_pos stays]
        rintro (same | mine)
        · exact ne_of_beq_false hx same
        · exact here (Option.some.inj (up.symm.trans (h.parent x d mine (transform?_of_above up))))
  · rw [children_reclaim, children_detach, if_neg (ne_of_beq_false hx), h.children_leave place]
    rfl
  · rw [World.reclaim, actors, actors, despawn_eq, (onlyPlaces_detach w d).rest]
    cases w.roster <;> rfl
  · unfold World.reclaim
    rw [despawn_eq, (onlyPlaces_detach w d).rest]

/-! ## Who is taken out -/

/-- Whether an entity is an actor that is flagged for removal. -/
def isDoomed (w : World K B) (x : EntityId) : Bool :=
  (w.actor? x).any fun a => a.state == .destroyed

/-- What is flagged for removal is an actor. -/
theorem isSome_actor?_of_isDoomed {w : World K B} {x : EntityId} (h : w.isDoomed x = true) :
    (w.actor? x).isSome := by
  unfold isDoomed at h
  cases hx : w.actor? x with
  | none =>
    rw [hx] at h
    cases h
  | some a => rfl

/-- Flagged actors are taken from the list in its order, each with its name. -/
theorem map_doomed {α : Type} (w : World K B) (f : EntityId × String → α) :
    w.doomed.map f = (w.actors.filter w.isDoomed).filterMap fun x =>
      (w.actor? x).map fun a => f (x, a.name) := by
  unfold doomed isDoomed
  generalize w.actors = l
  induction l with
  | nil => rfl
  | cons x l ih =>
    cases hx : w.actor? x with
    | none => simpa [hx] using ih
    | some a =>
      by_cases flagged : a.state = .destroyed
      · simpa [hx, flagged] using ih
      · simpa [hx, flagged] using ih

/-- The doomed are the listed actors that are flagged. -/
theorem fst_doomed (w : World K B) : w.doomed.map Prod.fst = w.actors.filter w.isDoomed := by
  rw [map_doomed]
  refine (List.filterMap_congr fun x hx => ?_).trans List.filterMap_some
  obtain ⟨a, ha⟩ := Option.isSome_iff_exists.1
    (isSome_actor?_of_isDoomed (List.mem_filter.1 hx).2)
  rw [ha]
  rfl

/-- All actors that are flagged are among the doomed. -/
theorem Listed.contains_doomed (h : w.Listed) (x : EntityId) :
    (w.doomed.map Prod.fst).contains x = w.isDoomed x := by
  rw [fst_doomed, Bool.eq_iff_iff, List.contains_iff_mem, List.mem_filter]
  exact and_iff_right_of_imp fun flagged => h.listed x (isSome_actor?_of_isDoomed flagged)

/-- Each of the doomed comes once. -/
theorem Listed.nodup_doomed (h : w.Listed) : (w.doomed.map Prod.fst).Nodup := by
  rw [fst_doomed]
  refine (h.sorted.filter _).imp ?_
  rintro a b before rfl
  exact Nat.lt_irrefl _ before

end World

/-! ## The sweep -/

section Sweeping

variable [Scalar K] [Behavior K B]
  (watching : ∀ e name,
    (Behavior.observe (.destroyed e name) : Program K B Unit).Only Request.Reads)
  (depth : Nat)
include watching

/-- One actor is sent off and taken out. -/
theorem SceneM.exists_reclaim {w : World K B} (traceable : w.Traceable) (fostered : w.Fostered)
    {d : EntityId × String} (place : (w.transform? d.1).isSome) :
    ∃ w', SceneM.reclaim (SceneM.respond (depth + 1)) d w = .ok () w' ∧
      w.Relieved w' (· == d.1) ∧ w'.notices = w.notices ++ [.destroyed d.1 d.2] ∧
      w'.Traceable ∧ w'.Fostered := by
  obtain ⟨v, emitted, remarked⟩ := SceneM.exists_emit
    (calm_reads (w.record (.actor (.destroyed d.1 d.2)))) depth (w := w) (watching d.1 d.2)
    ⟨rfl, rfl, rfl⟩
  have journal : v = { w with journal := v.journal } := remarked.rest
  have ties : World.SameTies w v := .of_entities (by rw [journal])
  have traceable' := traceable.congr ties
  have fostered' := fostered.congr ties
  refine ⟨v.reclaim d.1, (bind_of_ok emitted).trans rfl, ?_, ?_, traceable'.reclaim d.1,
    fostered'.reclaim d.1⟩
  · exact (World.Relieved.of_journal journal).trans
      (traceable'.relieved fostered' ((ties.places d.1).trans place))
  · rw [World.notices, World.noted_reclaim]
    exact remarked.notices.trans (World.noted_record w _)

/-- Any actors are taken out one after the other. -/
theorem SceneM.exists_reclaimAll (l : List (EntityId × String)) {w : World K B}
    (traceable : w.Traceable) (fostered : w.Fostered) (distinct : (l.map Prod.fst).Nodup)
    (places : ∀ d ∈ l, (w.transform? d.1).isSome) :
    ∃ w', l.forM (SceneM.reclaim (SceneM.respond (depth + 1))) w = .ok () w' ∧
      w.Relieved w' (l.map Prod.fst).contains ∧
      w'.notices = w.notices ++ l.map fun d => .destroyed d.1 d.2 := by
  induction l generalizing w with
  | nil => exact ⟨w, rfl, .of_journal rfl, (List.append_nil _).symm⟩
  | cons d l ih =>
    obtain ⟨fresh, distinct⟩ := List.nodup_cons.1 distinct
    obtain ⟨v, reclaimed, relieved, noticed, traceable', fostered'⟩ :=
      SceneM.exists_reclaim watching depth traceable fostered (places d (List.mem_cons_self ..))
    -- the others still have a place when their turn comes
    have remaining : ∀ d' ∈ l, (v.transform? d'.1).isSome := by
      intro d' hd'
      rw [relieved.isSome_transform? (beq_false_of_ne ?_)]
      · exact places d' (List.mem_cons_of_mem _ hd')
      · intro same
        exact fresh (same ▸ List.mem_map_of_mem hd')
    obtain ⟨w', run, relieved', noticed'⟩ := ih traceable' fostered' distinct remaining
    refine ⟨w', (bind_of_ok reclaimed).trans run, ?_, ?_⟩
    · have out : (List.map Prod.fst (d :: l)).contains
          = fun x => x == d.1 || (l.map Prod.fst).contains x := funext fun x => List.contains_cons
      exact out ▸ relieved.trans relieved'
    · rw [noticed', noticed, List.append_assoc]
      rfl

/-- A sweep removes exactly the actors that are flagged, at every instant of every scene, however
flagged actors and others are linked: chains of flagged actors, children that were put under a
flagged parent later, flagged children of others. It comes to an end, provided that those who
observe the removal only look. Each removed actor is sent off once, in the order of creation, and
all others are as they were but for the links to the removed: they keep a parent that stays, and
their children that stay, in order. If links led to places before, they still do. -/
theorem sweeps_remove_the_flagged {w : World K B} (h : AtInstant w) :
    ∃ w', SceneM.performWith (SceneM.respond (depth + 1)) .sweep w = .ok () w' ∧
      (∀ x, (w'.actor? x).isSome ↔ (w.actor? x).isSome ∧ w.isDoomed x = false) ∧
      w.Relieved w' w.isDoomed ∧ (w.WellLinked → w'.WellLinked) ∧ w.Listed ∧
      w'.notices = w.notices ++ (w.actors.filter w.isDoomed).filterMap fun x =>
        (w.actor? x).map fun a => .destroyed x a.name := by
  have listed : w.Listed :=
    h.keeps (fun _ entities actors => .of_empty entities actors) Change.listed
  have places : ∀ d ∈ w.doomed, (w.transform? d.1).isSome := by
    intro d hd
    have flagged := (List.mem_filter.1 (w.fst_doomed ▸ List.mem_map_of_mem hd)).2
    exact h.traceable.placed d.1 (World.isSome_actor?_of_isDoomed flagged)
  obtain ⟨w', run, relieved, noticed⟩ := SceneM.exists_reclaimAll watching depth w.doomed
    h.traceable h.fostered listed.nodup_doomed places
  rw [funext listed.contains_doomed] at relieved
  refine ⟨w', (bind_of_ok rfl).trans run, fun x => ?_, relieved, relieved.wellLinked, listed,
    ?_⟩
  · cases flagged : w.isDoomed x with
    | true => simp [World.actor?, relieved.gone x flagged]
    | false => rw [relieved.actor? flagged, and_iff_left rfl]
  · rw [noticed, World.map_doomed]

end Sweeping

/-! ## A household -/

/-- Three actors one under the other. The second is destroyed, and with it the third; then one more
is put under the second, and one under the first. -/
def household : Program Float32 Empty Unit := do
  let a ← Program.edit (.spawn (.named "a"))
  let b ← Program.edit (.spawn { ActorSpec.named "b" with parent := some a })
  let _ ← Program.edit (.spawn { ActorSpec.named "c" with parent := some b })
  let () ← Program.edit (.destroy b)
  let _ ← Program.edit (.spawn { ActorSpec.named "d" with parent := some b })
  let _ ← Program.edit (.spawn { ActorSpec.named "e" with parent := some a })
  return ()

/-- The second and the third go, in this order, and the one under the second becomes a root. -/
theorem sweeps_remove_the_flagged_household :
    ∃ w w' : World Float32 Empty, AtInstant w ∧ SceneM.perform .sweep w = .ok () w' ∧
      w.Relieved w' w.isDoomed ∧ w'.actors = [⟨0⟩, ⟨3⟩, ⟨4⟩] ∧
      w'.notices = w.notices ++ [.destroyed ⟨1⟩ "b", .destroyed ⟨2⟩ "c"] ∧
      w'.parent? ⟨3⟩ = none ∧ w'.parent? ⟨4⟩ = some ⟨0⟩ ∧ w'.children ⟨0⟩ = [⟨4⟩] := by
  have run : household.passes .bare fun _ w => decide (w.doomed = [(⟨1⟩, "b"), (⟨2⟩, "c")]) &&
      decide (w.actors.filter (fun x => !w.isDoomed x) = [⟨0⟩, ⟨3⟩, ⟨4⟩]) &&
      decide (w.parent? ⟨3⟩ = some ⟨1⟩) && decide (w.parent? ⟨4⟩ = some ⟨0⟩) &&
      decide (w.children ⟨0⟩ = [⟨1⟩, ⟨4⟩]) && decide ([0, 1, 3, 4].map (w.isDoomed ⟨·⟩)
        = [false, true, false, false]) := by decide +kernel
  obtain ⟨_, w, hrun, checked⟩ := Program.exists_of_passes run
  simp only [Bool.and_eq_true, decide_eq_true_eq, List.map_cons, List.cons.injEq] at checked
  obtain ⟨⟨⟨⟨⟨doomed, actors⟩, below⟩, top⟩, children⟩, first, second, fourth, fifth, -⟩ := checked
  have h : AtInstant w := (Reachable.step (.empty rfl rfl rfl rfl)
    (.program (Scope.fit_everything _) hrun)).moment.instant
  obtain ⟨depth, limit⟩ := SceneM.exists_hookLimit
  obtain ⟨w', swept, -, relieved, -, -, noticed⟩ := sweeps_remove_the_flagged
    (K := Float32) (B := Empty) (fun _ _ => trivial) depth h
  rw [← World.map_doomed w fun d => ActorEvent.destroyed d.1 d.2, doomed] at noticed
  refine ⟨w, w', h, by rw [SceneM.perform, limit]; exact swept, relieved,
    relieved.actors.trans actors, noticed, ?_, ?_, ?_⟩
  · rw [relieved.parents _ fourth, below, Option.filter_some, second]
    rfl
  · exact relieved.parent?_eq_some_iff.2 ⟨fifth, first, top⟩
  · rw [relieved.children _ first, children]
    simp [second, fifth]

end SheepScene
