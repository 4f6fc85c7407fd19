import SheepScene.Proofs.Scene.Composition
import SheepScene.Proofs.Scene.WellFormed

/-!
# Keeping matrices cannot be observed

A matrix that is kept is the one that would be composed now, and an inverse is kept only beside
the matrix that it belongs to (`Coherent`). Queries answer what is composed and stay coherent, in
spite of what they write. Every other change leaves alone everything outside of a part of the tree
that reaches all the way down, and forgets the matrices in that part (`Untouched`).
-/

set_option autoImplicit false

namespace SheepScene.World

variable {K B : Type} [Scalar K]

/-- The matrices that are kept with a place are those of its entity. -/
structure Knows (w : World K B) (e : EntityId) (t : Transform K) : Prop where
  matrix : ∀ m, t.localToWorld = some m → w.Composes e m
  inverse : ∀ n, t.worldToLocal = some n →
    ∃ m, t.localToWorld = some m ∧ n = m.inverseOrIdentity

/-- A tree that is linked well, with matrices that are up to date. -/
structure Coherent (w : World K B) : Prop where
  links : w.WellLinked
  knows : ∀ e t, w.transform? e = some t → w.Knows e t

/-! ## Queries -/

section Queries

variable {w : World K B}

/-- What is known of an entity survives the queries. -/
theorem Knows.settles {w' : World K B} {e : EntityId} {t : Transform K} (h : w.Knows e t)
    (settles : Settles w w') : w'.Knows e t :=
  ⟨fun m hm => (h.matrix m hm).settles settles, h.inverse⟩

/-- A place whose change is settled by queries may keep what is composed for it. -/
theorem Coherent.modifyTransform (h : w.Coherent) {e : EntityId}
    {f : Transform K → Transform K} (settles : Settles w (w.modifyTransform e f))
    (knows : ∀ t, w.transform? e = some t → w.Knows e (f t)) :
    (w.modifyTransform e f).Coherent := by
  refine ⟨h.links.congr settles.sameLinks.parent? settles.sameLinks.children, fun x t ht => ?_⟩
  refine Knows.settles ?_ settles
  rw [transform?_modifyTransform] at ht
  split at ht
  · rename_i hx
    subst hx
    obtain ⟨t₀, ht₀, rfl⟩ := Option.map_eq_some_iff.1 ht
    exact knows t₀ ht₀
  · exact h.knows x t ht

/-- Laying out an anchored entity keeps the caches right. -/
theorem Coherent.applyLayout (h : w.Coherent) (e : EntityId) : (w.applyLayout e).Coherent := by
  have settles := settles_applyLayout w e
  unfold World.applyLayout at settles ⊢
  split
  · rename_i derived hderived
    rw [hderived] at settles
    refine h.modifyTransform settles fun t ht => ?_
    exact ⟨(h.knows e t ht).matrix, (h.knows e t ht).inverse⟩
  · exact h

/-- A place after its layout has been applied. -/
theorem transform?_applyLayout (w : World K B) (e : EntityId) :
    (w.applyLayout e).transform? e = (w.transform? e).map (w.laidOut e) := by
  unfold World.applyLayout
  cases hderived : w.derivedPosition? e with
  | none =>
    have same : w.laidOut e = id := by
      funext t
      rw [laidOut, hderived]
      rfl
    rw [same, Option.map_id_fun, id]
  | some derived =>
    have moved : w.laidOut e = fun t =>
        { t with position := { t.position with x := derived.x, y := derived.y } } := by
      funext t
      rw [laidOut, hderived]
    rw [moved]
    exact (transform?_modifyTransform w e e _).trans (if_pos rfl)

/-- What a query for a matrix comes to. -/
structure Answers (w : World K B) (e : EntityId) (m : Mat4 K) (w' : World K B) : Prop where
  composes : w.Composes e m
  coherent : w'.Coherent
  kept : ∃ t, w'.transform? e = some t ∧ t.localToWorld = some m

/-- Keeping a matrix that has been composed. -/
theorem Coherent.keep {w' : World K B} (h : w'.Coherent) (settles : Settles w w') {e : EntityId}
    {m : Mat4 K} (he : (w.transform? e).isSome) (hm : w.Composes e m) :
    w.Answers e m (w'.modifyTransform e fun t =>
      { t with localToWorld := some m, worldToLocal := none }) := by
  have he' := (settles.sameLinks.onlyPlaces.isSome_transform? e).trans he
  obtain ⟨t, ht⟩ := Option.isSome_iff_exists.1 he'
  refine ⟨hm, ?_, ?_⟩
  · refine h.modifyTransform (settles_keepMatrices w' e fun _ => (some m, none)) fun t ht => ?_
    refine ⟨fun m' hm' => ?_, fun n hn => nomatch hn⟩
    cases hm'
    exact hm.settles settles
  · rw [transform?_modifyTransform, if_pos rfl, ht]
    exact ⟨_, rfl, rfl⟩

omit [Scalar K] in
/-- The line of ancestors depends only on the parents. -/
theorem lineage_congr {w' : World K B} (size : w'.entities.size = w.entities.size)
    (parents : ∀ e, w'.parent? e = w.parent? e) (e : EntityId) : w'.lineage e = w.lineage e := by
  unfold lineage
  rw [size, lineageFrom_congr parents]

omit [Scalar K] in
/-- Whether an actor is active depends on the actors and on who is below whom. -/
theorem isActive_congr {w' : World K B} (size : w'.entities.size = w.entities.size)
    (parents : ∀ e, w'.parent? e = w.parent? e) (actors : ∀ e, w'.actor? e = w.actor? e)
    (e : EntityId) : w'.isActive e = w.isActive e := by
  unfold isActive
  rw [lineage_congr size parents, actors]
  congr 2
  funext x
  rw [actors]

/-- The matrix of an entity's own space, after its layout. -/
theorem ownMatrix?_eq {e : EntityId} {t : Transform K} (ht : w.transform? e = some t) :
    w.ownMatrix? e = some (((w.applyLayout e).transform? e).getD t).localMatrix := by
  rw [ownMatrix?, transform?_applyLayout, ht]
  rfl

/-- Where a matrix is kept, and at a root, a query goes no further. -/
theorem Coherent.answers_here (h : w.Coherent) (steps : Nat) {e : EntityId} {t : Transform K}
    (ht : w.transform? e = some t) (here : t.localToWorld = none → t.parent = none) :
    ∃ m, (localToWorldFrom steps w e).1 = some m ∧
      w.Answers e m (localToWorldFrom steps w e).2 := by
  have he : (w.transform? e).isSome := by rw [ht, Option.isSome_some]
  have hparent : w.parent? e = t.parent := by rw [parent?, ht, Option.bind_some]
  rw [localToWorldFrom.eq_def, ht]
  dsimp only
  cases hknown : t.localToWorld with
  | some known => exact ⟨known, rfl, (h.knows e t ht).matrix known hknown, h, t, ht, hknown⟩
  | none =>
    have hroot : t.parent = none := here hknown
    have composes := Composes.root (ownMatrix?_eq ht) (hparent.trans hroot)
    rw [hroot]
    exact ⟨_, rfl, (h.applyLayout e).keep (settles_applyLayout w e) he composes⟩

/-- A query for a matrix answers the composition, as long as its steps reach the root. -/
theorem Coherent.answers_localToWorldFrom (h : w.Coherent) {steps : Nat} {e : EntityId}
    (he : (w.transform? e).isSome) (enough : (w.lineage e).length ≤ steps + 1) :
    ∃ m, (localToWorldFrom steps w e).1 = some m ∧
      w.Answers e m (localToWorldFrom steps w e).2 := by
  -- by the links that may be followed: the lineage of the parent is one shorter
  induction steps generalizing w e with
  | zero =>
    obtain ⟨t, ht⟩ := Option.isSome_iff_exists.1 he
    have hparent : w.parent? e = t.parent := by rw [parent?, ht, Option.bind_some]
    refine h.answers_here 0 ht fun _ => ?_
    cases hp : t.parent with
    | none => rfl
    | some parent =>
      rw [h.links.lineage_eq, hparent, hp] at enough
      simp [h.links.lineage_eq parent] at enough
  | succ steps ih =>
    obtain ⟨t, ht⟩ := Option.isSome_iff_exists.1 he
    by_cases here : t.localToWorld = none → t.parent = none
    · exact h.answers_here _ ht here
    · obtain ⟨hknown, hrooted⟩ := Classical.not_imp.1 here
      obtain ⟨parent, hp⟩ := Option.ne_none_iff_exists'.1 hrooted
      have hup : w.parent? e = some parent := by rw [parent?, ht, Option.bind_some, hp]
      have settles := settles_applyLayout w e
      have there : ((w.applyLayout e).transform? parent).isSome :=
        (settles.sameLinks.onlyPlaces.isSome_transform? parent).trans
          (h.links.transform?_parent hup)
      have closer : ((w.applyLayout e).lineage parent).length ≤ steps + 1 := by
        rw [lineage_congr settles.size settles.sameLinks.parent?]
        rw [h.links.lineage_eq, hup, Option.map_some, Option.getD_some,
          List.length_cons] at enough
        omega
      obtain ⟨above, habove, answers⟩ := ih (h.applyLayout e) there closer
      have composes : w.Composes e (above *
          (((w.applyLayout e).transform? e).getD t).localMatrix) := by
        refine .under (ownMatrix?_eq ht) hup ?_
        exact answers.composes.settles settles.symm
      have asked := settles.trans (settles_localToWorldFrom steps (w.applyLayout e) parent)
      unfold localToWorldFrom
      rw [ht]
      dsimp only
      rw [hknown, hp]
      dsimp only
      rw [habove]
      exact ⟨_, rfl, answers.coherent.keep asked he composes⟩

/-- A query for the matrix into the world. -/
theorem Coherent.answers_localToWorld (h : w.Coherent) {e : EntityId}
    (he : (w.transform? e).isSome) :
    ∃ m, (w.localToWorld e).1 = some m ∧ w.Answers e m (w.localToWorld e).2 :=
  h.answers_localToWorldFrom he (Nat.le_succ_of_le (h.links.length_lineageFrom_le he))

/-- An entity without a transform has no world matrix. -/
theorem localToWorld_none {e : EntityId} (he : w.transform? e = none) :
    w.localToWorld e = (none, w) := by
  unfold localToWorld
  rw [localToWorldFrom.eq_def, he]

/-- Asking for a world matrix keeps the caches right. -/
theorem Coherent.localToWorld (h : w.Coherent) (e : EntityId) : (w.localToWorld e).2.Coherent := by
  by_cases he : (w.transform? e).isSome
  · obtain ⟨m, -, answers⟩ := h.answers_localToWorld he
    exact answers.coherent
  · rw [localToWorld_none (Option.not_isSome_iff_eq_none.1 he)]
    exact h

/-- Matrices into the world are what is composed. -/
theorem Coherent.localToWorld_eq_some_iff (h : w.Coherent) {e : EntityId} {m : Mat4 K} :
    (w.localToWorld e).1 = some m ↔ w.Composes e m := by
  by_cases he : (w.transform? e).isSome
  · obtain ⟨m', hm', answers⟩ := h.answers_localToWorld he
    rw [hm']
    refine ⟨fun hm => ?_, fun hm => ?_⟩
    · cases hm
      exact answers.composes
    · rw [answers.composes.unique hm]
  · rw [localToWorld_none (Option.not_isSome_iff_eq_none.1 he)]
    exact ⟨fun hm => (nomatch hm), fun hm => absurd hm.isSome_transform? he⟩

/-- A query for the matrix from the world. -/
theorem Coherent.answers_worldToLocal (h : w.Coherent) {e : EntityId}
    (he : (w.transform? e).isSome) :
    ∃ m, (w.worldToLocal e).1 = some m.inverseOrIdentity ∧ w.Composes e m ∧
      (w.worldToLocal e).2.Coherent := by
  unfold worldToLocal
  split
  · rename_i known hknown
    obtain ⟨t, ht, hkept⟩ := Option.bind_eq_some_iff.1 hknown
    split at hkept
    · cases hkept
    · obtain ⟨m, hm, rfl⟩ := (h.knows e t ht).inverse known hkept
      exact ⟨m, rfl, (h.knows e t ht).matrix m hm, h⟩
  · obtain ⟨m, hm, answers⟩ := h.answers_localToWorld he
    have settles := settles_localToWorld w e
    rcases hq : w.localToWorld e with ⟨matrix, w'⟩
    rw [hq] at hm answers settles
    cases hm
    refine ⟨m, rfl, answers.composes, ?_⟩
    obtain ⟨t, ht, hkept⟩ := answers.kept
    refine answers.coherent.modifyTransform
      (settles_keepMatrices w' e fun t => (t.localToWorld, some m.inverseOrIdentity)) ?_
    intro t' ht'
    cases ht.symm.trans ht'
    refine ⟨fun m' hm' => ?_, fun n hn => ?_⟩
    · cases hkept.symm.trans hm'
      exact answers.composes.settles settles
    · cases hn
      exact ⟨m, hkept, rfl⟩

/-- An entity without a transform has no inverse matrix. -/
theorem worldToLocal_none {e : EntityId} (he : w.transform? e = none) :
    w.worldToLocal e = (none, w) := by
  unfold worldToLocal
  rw [he, localToWorld_none he]
  rfl

/-- Asking for an inverse keeps the caches right. -/
theorem Coherent.worldToLocal (h : w.Coherent) (e : EntityId) : (w.worldToLocal e).2.Coherent := by
  by_cases he : (w.transform? e).isSome
  · obtain ⟨m, -, -, coherent⟩ := h.answers_worldToLocal he
    exact coherent
  · rw [worldToLocal_none (Option.not_isSome_iff_eq_none.1 he)]
    exact h

/-- Matrices from the world are the inverses of what is composed. -/
theorem Coherent.worldToLocal_eq_some_iff (h : w.Coherent) {e : EntityId} {n : Mat4 K} :
    (w.worldToLocal e).1 = some n ↔ ∃ m, w.Composes e m ∧ n = m.inverseOrIdentity := by
  by_cases he : (w.transform? e).isSome
  · obtain ⟨m, hm, composes, -⟩ := h.answers_worldToLocal he
    rw [hm]
    refine ⟨fun hn => ?_, fun ⟨m', hm', hn⟩ => ?_⟩
    · cases hn
      exact ⟨m, composes, rfl⟩
    · rw [hn, composes.unique hm']
  · rw [worldToLocal_none (Option.not_isSome_iff_eq_none.1 he)]
    exact ⟨fun hn => (nomatch hn), fun ⟨_, hm, _⟩ => absurd hm.isSome_transform? he⟩

/-- Asking for a world position keeps the caches right. -/
theorem Coherent.worldPosition (h : w.Coherent) (e : EntityId) :
    (w.worldPosition e).2.Coherent :=
  h.localToWorld e

/-- Asking for a point into the world keeps the caches right. -/
theorem Coherent.localToWorldPoint (h : w.Coherent) (e : EntityId) (v : Vec3 K) :
    (w.localToWorldPoint e v).2.Coherent :=
  h.localToWorld e

/-- Asking for a point out of the world keeps the caches right. -/
theorem Coherent.worldToLocalPoint (h : w.Coherent) (e : EntityId) (v : Vec3 K) :
    (w.worldToLocalPoint e v).2.Coherent :=
  h.worldToLocal e

/-- Asking for a world rectangle keeps the caches right. -/
theorem Coherent.worldRect (h : w.Coherent) (e : EntityId) : (w.worldRect e).2.Coherent := by
  unfold World.worldRect
  split
  · exact h
  · rename_i rect _
    have low := h.localToWorldPoint e (rect.low.lift 0)
    split
    · rename_i heq
      rw [heq] at low
      exact low
    · rename_i w' heq
      rw [heq] at low
      have high := low.localToWorldPoint e (rect.high.lift 0)
      split
      · rename_i heq
        rw [heq] at high
        exact high
      · rename_i heq
        rw [heq] at high
        exact high

/-- Asking for a row of a snapshot keeps the caches right. -/
theorem Coherent.row (h : w.Coherent) (e : EntityId) : (w.row e).2.Coherent := by
  unfold World.row
  split
  · exact h
  · dsimp only
    split
    · exact h
    · exact h.worldPosition e

/-- Asking for a snapshot keeps the caches right. -/
theorem Coherent.snapshot (h : w.Coherent) : w.snapshot.2.Coherent := by
  have rows : ∀ (f : List (Option (EntityRow K)) × World K B → EntityId →
      List (Option (EntityRow K)) × World K B), (∀ s e, s.2.Coherent → (f s e).2.Coherent) →
      ∀ (l : List EntityId) s, s.2.Coherent → (l.foldl f s).2.Coherent := by
    intro f hf l
    induction l with
    | nil => exact fun s hs => hs
    | cons e l ih => exact fun s hs => ih (f s e) (hf s e hs)
  unfold World.snapshot
  exact rows _ (fun s e hs => hs.row e) _ ([], w) h

end Queries

end SheepScene.World
