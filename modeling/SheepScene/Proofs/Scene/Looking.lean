import SheepScene.Proofs.Machine.RunTriples
import SheepScene.Proofs.Scene.Programs
import SheepScene.Proofs.Scene.Relinking
import SheepScene.Scene.Frame

/-!
# Looking at a scene

Questions about places are answered by matrices, and these are kept. So looking at a scene is not
quite without traces: places are settled, and more matrices are known afterwards than before
(`World.Looked`). Whatever is known stays known, and a place in the world is answered from there
(`World.worldPosition_eq`). Programs that only look do no more than that
(`World.looked_program`).
-/

set_option autoImplicit false

namespace SheepScene

variable {K B : Type}

/-- Edits that make matrices known or write into the journal and do nothing else. -/
def Edit.Looks : Edit K B → Prop
  | .worldPosition _ | .localToWorld _ | .worldToLocal _ | .localToWorldPoint ..
  | .worldToLocalPoint .. | .worldRect _ | .rectContains .. | .snapshot | .log .. | .note _
  | .probed .. => True
  | _ => False

/-- Requests that only look. -/
def Request.Looks : Request K B → Prop
  | .ask _ => True
  | .edit x => x.Looks
  | _ => False

namespace World

/-- The matrix of an entity into the world, if it is known. -/
def matrix? (w : World K B) (e : EntityId) : Option (Mat4 K) :=
  (w.transform? e).bind (·.localToWorld)

/-- Worlds between which there was only looking. -/
structure Looked (w w' : World K B) : Prop where
  settles : Settles w w'
  known : ∀ e m, w.matrix? e = some m → w'.matrix? e = some m

namespace Looked

variable {w w₁ w' : World K B}

/-- Doing nothing is looking. -/
theorem refl (w : World K B) : Looked w w :=
  ⟨.refl w, fun _ _ known => known⟩

/-- Looking twice is looking. -/
theorem trans (h : Looked w w₁) (h' : Looked w₁ w') : Looked w w' :=
  ⟨h.settles.trans h'.settles, fun e m known => h'.known e m (h.known e m known)⟩

/-- A note in the journal is no more than looking. -/
theorem record (w : World K B) (event : Event K B) : Looked w (w.record event) :=
  ⟨.record w event, fun _ _ known => known⟩

/-- Changing a place without forgetting its matrix. -/
theorem modifyTransform {e : EntityId} {f : Transform K → Transform K}
    (settles : Settles w (w.modifyTransform e f))
    (keeps : ∀ t m, t.localToWorld = some m → (f t).localToWorld = some m) :
    Looked w (w.modifyTransform e f) := by
  refine ⟨settles, fun x m known => ?_⟩
  obtain ⟨t, place, known⟩ := Option.bind_eq_some_iff.1 known
  rw [matrix?, transform?_modifyTransform]
  split
  · rw [place]
    exact keeps t m known
  · rw [place]
    exact known

end Looked

variable [Scalar K]

/-! ## Queries for places -/

/-- Laying out an entity is no more than looking. -/
theorem looked_applyLayout (w : World K B) (e : EntityId) : Looked w (w.applyLayout e) := by
  have settles := settles_applyLayout w e
  unfold applyLayout at settles ⊢
  split
  · rename_i derived
    rw [derived] at settles
    exact .modifyTransform settles fun _ _ known => known
  · exact .refl w

omit [Scalar K] in
/-- Writing a matrix that was not known overwrites none. -/
theorem known_modifyTransform {w v : World K B} {e : EntityId} (f : Transform K → Transform K)
    (unknown : w.matrix? e = none) (known : ∀ x m, w.matrix? x = some m → v.matrix? x = some m)
    (x : EntityId) (m : Mat4 K) (before : w.matrix? x = some m) :
    (v.modifyTransform e f).matrix? x = some m := by
  have other : x ≠ e := by
    rintro rfl
    rw [unknown] at before
    cases before
  rw [matrix?, transform?_modifyTransform, if_neg other]
  exact known x m before

/-- Climbing for a matrix is no more than looking. -/
theorem looked_localToWorldFrom (steps : Nat) (w : World K B) (e : EntityId) :
    Looked w (localToWorldFrom steps w e).2 := by
  refine ⟨settles_localToWorldFrom steps w e, ?_⟩
  induction steps generalizing w e with
  | zero =>
    have laid := (looked_applyLayout w e).known
    unfold localToWorldFrom
    cases place : w.transform? e with
    | none => exact fun _ _ known => known
    | some t =>
      dsimp only
      cases known : t.localToWorld with
      | some m => exact fun _ _ known => known
      | none =>
        have unknown : w.matrix? e = none := by rw [matrix?, place, Option.bind_some, known]
        cases t.parent <;> exact known_modifyTransform _ unknown laid
  | succ steps ih =>
    have laid := (looked_applyLayout w e).known
    unfold localToWorldFrom
    cases place : w.transform? e with
    | none => exact fun _ _ known => known
    | some t =>
      dsimp only
      cases known : t.localToWorld with
      | some m => exact fun _ _ known => known
      | none =>
        have unknown : w.matrix? e = none := by rw [matrix?, place, Option.bind_some, known]
        cases t.parent with
        | none => exact known_modifyTransform _ unknown laid
        | some parent =>
          refine known_modifyTransform _ unknown fun x m known => ?_
          exact ih (w.applyLayout e) parent x m (laid x m known)

/-- Asking for a world matrix is no more than looking. -/
theorem looked_localToWorld (w : World K B) (e : EntityId) : Looked w (w.localToWorld e).2 :=
  looked_localToWorldFrom _ w e

/-- Asking for an inverse is no more than looking. -/
theorem looked_worldToLocal (w : World K B) (e : EntityId) : Looked w (w.worldToLocal e).2 := by
  have looked := looked_localToWorld w e
  unfold worldToLocal
  split
  · exact .refl w
  · split
    · rename_i found
      rw [found] at looked
      exact looked
    · rename_i found
      rw [found] at looked
      refine looked.trans (.modifyTransform ?_ fun _ _ known => known)
      exact settles_keepMatrices _ e fun t => (t.localToWorld, _)

/-- Asking for a world rectangle is no more than looking. -/
theorem looked_worldRect (w : World K B) (e : EntityId) : Looked w (w.worldRect e).2 := by
  unfold worldRect
  split
  · exact .refl w
  · rename_i rect _
    have low : Looked w (w.localToWorldPoint e (rect.low.lift 0)).2 := looked_localToWorld w e
    split
    · rename_i found
      rw [found] at low
      exact low
    · rename_i w' found
      rw [found] at low
      have high : Looked w' (w'.localToWorldPoint e (rect.high.lift 0)).2 :=
        looked_localToWorld w' e
      split
      · rename_i found
        rw [found] at high
        exact low.trans high
      · rename_i found
        rw [found] at high
        exact low.trans high

/-- Asking for a snapshot is no more than looking. -/
theorem looked_snapshot (w : World K B) : Looked w w.snapshot.2 := by
  have row : ∀ (w : World K B) e, Looked w (w.row e).2 := by
    intro w e
    unfold World.row
    split
    · exact .refl w
    · dsimp only
      split
      · exact .refl w
      · exact looked_localToWorld w e
  have rows : ∀ (f : List (Option (EntityRow K)) × World K B → EntityId →
      List (Option (EntityRow K)) × World K B), (∀ s e, Looked s.2 (f s e).2) →
      ∀ (l : List EntityId) s, Looked s.2 (l.foldl f s).2 := by
    intro f hf l
    induction l with
    | nil => exact fun s => .refl s.2
    | cons e l ih => exact fun s => (hf s e).trans (ih (f s e))
  unfold snapshot
  exact rows _ (fun s e => row s.2 e) _ ([], w)

/-! ## What is known is answered -/

/-- Asking for the matrix of a place makes it known. -/
theorem exists_matrix?_localToWorld {w : World K B} {e : EntityId}
    (place : (w.transform? e).isSome) :
    ∃ m, (w.localToWorld e).1 = some m ∧ (w.localToWorld e).2.matrix? e = some m := by
  have there := ((settles_localToWorld w e).sameLinks.onlyPlaces.isSome_transform? e).trans place
  obtain ⟨t, ht⟩ := Option.isSome_iff_exists.1 place
  unfold localToWorld at there ⊢
  rw [localToWorldFrom.eq_def, ht] at there ⊢
  dsimp only at there ⊢
  cases known : t.localToWorld with
  | some m => exact ⟨m, rfl, by rw [matrix?, ht, Option.bind_some, known]⟩
  | none =>
    rw [known] at there
    dsimp only at there
    rw [transform?_modifyTransform, if_pos rfl, Option.isSome_map] at there
    obtain ⟨t', ht'⟩ := Option.isSome_iff_exists.1 there
    refine ⟨_, rfl, ?_⟩
    rw [matrix?, transform?_modifyTransform, if_pos rfl, ht']
    rfl

/-- A known matrix answers where an entity is, and nothing changes. -/
theorem worldPosition_eq {w : World K B} {e : EntityId} {m : Mat4 K}
    (known : w.matrix? e = some m) : w.worldPosition e = (some m.origin, w) := by
  obtain ⟨t, ht, known⟩ := Option.bind_eq_some_iff.1 known
  unfold worldPosition localToWorld
  rw [localToWorldFrom.eq_def, ht]
  dsimp only
  rw [known]
  rfl

/-! ## Programs that look -/

/-- An edit that looks is no more than looking. -/
theorem looked_apply [Behavior K B] (w : World K B) {x : Edit K B} (looks : x.Looks) :
    Looked w (w.apply x).2 := by
  cases x with
  | worldPosition e | localToWorld e | localToWorldPoint e v => exact looked_localToWorld w e
  | worldToLocal e | worldToLocalPoint e v => exact looked_worldToLocal w e
  | worldRect e | rectContains e point => exact looked_worldRect w e
  | snapshot => exact looked_snapshot w
  | log | note | probed => exact .record w _
  | _ => exact absurd looks id

/-- Programs that only look do nothing else. -/
theorem looked_program [Behavior K B] {respond : Impulse K → SceneM K B Unit} {R : Type}
    {p : Program K B R} (looks : p.Only Request.Looks) (w : World K B) :
    Keeps (Looked w) (p.run (SceneM.performWith respond)) := by
  have performed : ∀ {request : Request K B}, request.Looks →
      Keeps (Looked w) (SceneM.performWith respond request) := by
    intro request looks
    cases request with
    | ask query => exact keeps_getBind fun _ _ => keeps_pure _
    | edit x => exact ensures_modifyGet fun v seen => seen.trans (looked_apply v looks)
    | _ => exact absurd looks id
  induction p with
  | done r => exact keeps_pure r
  | perform request next ih =>
    exact keeps_bind (performed looks.1) fun answer => ih answer (looks.2 answer)
  | echo tag request next ih =>
    refine keeps_bind (performed looks.1) fun answer => ?_
    exact keeps_bind (keeps_modify fun v seen => seen.trans (.record v _)) fun _ =>
      ih answer (looks.2 answer)

end World

end SheepScene
