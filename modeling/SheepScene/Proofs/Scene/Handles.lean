import SheepScene.Proofs.Scene.Cells

/-!
# Who holds a wait handle

A mover holds the handle of its move until the move is over, in its cell or while it executes: a
handle is held at a place, which is an actor and an index. Handles are accounted for (`Accounted`)
when every handle that was issued is complete or held at one place, and at one place only. Every
change of the scene comes to one of a few bookings: nothing moves, a component leaves its cell or
goes back, it changes or goes away when what it held is complete, or a handle is issued and taken at
one place.
-/

set_option autoImplicit false

namespace SheepScene

variable {K B : Type}

/-! ## Ledgers -/

/-- Handles that have been issued and are not complete are held at exactly one place. -/
structure Ledger {Place : Type} (holds : Place → WaitHandle → Prop) (waits : Waits) : Prop where
  issued : ∀ {x h}, holds x h → ∃ serial < waits.issued.size, h = .issued serial
  single : ∀ {x y h}, holds x h → holds y h → x = y
  kept : ∀ serial < waits.issued.size, waits.isComplete (.issued serial) = false →
    ∃ x, holds x (.issued serial)

namespace Ledger

variable {Place : Type} {holds holds' : Place → WaitHandle → Prop} {waits waits' : Waits}

/-- Handles may be let go of when they are complete. -/
theorem settle (h : Ledger holds waits) (progress : waits.Progress waits')
    (fewer : ∀ x k, holds' x k → holds x k)
    (settled : ∀ x k, holds x k → holds' x k ∨ waits'.isComplete k = true) :
    Ledger holds' waits' where
  issued hk := by
    rw [progress.size]
    exact h.issued (fewer _ _ hk)
  single hx hy := h.single (fewer _ _ hx) (fewer _ _ hy)
  kept serial hlt hopen := by
    rw [progress.size] at hlt
    have hopen' : waits.isComplete (.issued serial) = false := by
      by_contra hcomplete
      rw [progress.complete _ (by simpa using hcomplete)] at hopen
      cases hopen
    obtain ⟨x, hx⟩ := h.kept serial hlt hopen'
    rcases settled x _ hx with hx' | hcomplete
    · exact ⟨x, hx'⟩
    · rw [hcomplete] at hopen
      cases hopen

/-- A handle that is issued is to be taken at one place, or completed. -/
theorem issue (h : Ledger holds waits) (progress : waits.issue.2.Progress waits') {x : Place}
    (taken : holds' x waits.issue.1 ∨ waits'.isComplete waits.issue.1 = true)
    (fewer : ∀ y k, holds' y k → holds y k ∨ (y = x ∧ k = waits.issue.1))
    (settled : ∀ y k, holds y k → holds' y k ∨ waits'.isComplete k = true) :
    Ledger holds' waits' := by
  have size : waits'.issued.size = waits.issued.size + 1 :=
    progress.size.trans waits.size_issue
  have unheld : ∀ y, ¬ holds y waits.issue.1 := by
    intro y hy
    obtain ⟨serial, hlt, heq⟩ := h.issued hy
    cases heq
    exact Nat.lt_irrefl _ hlt
  refine ⟨fun {y k} hk => ?_, fun {y z k} hy hz => ?_, fun serial hlt hopen => ?_⟩
  · rcases fewer y k hk with hold | ⟨-, rfl⟩
    · obtain ⟨serial, hlt, heq⟩ := h.issued hold
      exact ⟨serial, by omega, heq⟩
    · exact ⟨waits.issued.size, by omega, rfl⟩
  · rcases fewer y k hy with hy' | ⟨rfl, rfl⟩
    · rcases fewer z k hz with hz' | ⟨-, rfl⟩
      · exact h.single hy' hz'
      · exact absurd hy' (unheld y)
    · rcases fewer z _ hz with hz' | ⟨rfl, -⟩
      · exact absurd hz' (unheld z)
      · rfl
  · by_cases hnew : serial = waits.issued.size
    · rcases taken with hx | hcomplete
      · rw [hnew]
        exact ⟨x, hx⟩
      · rw [hnew, show WaitHandle.issued waits.issued.size = waits.issue.1 from rfl,
          hcomplete] at hopen
        cases hopen
    · have hold : serial < waits.issued.size := by omega
      have hopen' : waits.isComplete (.issued serial) = false := by
        by_contra hcomplete
        rw [progress.complete (.issued serial)] at hopen
        · cases hopen
        · rw [Waits.isComplete_issue hold]
          simpa using hcomplete
      obtain ⟨y, hy⟩ := h.kept serial hold hopen'
      rcases settled y _ hy with hy' | hcomplete
      · exact ⟨y, hy'⟩
      · rw [hcomplete] at hopen
        cases hopen

end Ledger

/-- Where a component is executing. -/
def Executing.place (x : Executing K B) : EntityId × Nat :=
  (x.actor, x.index)

namespace World

/-- A component is at a place, in its cell or executing. -/
def Present (out : List (Executing K B)) (w : World K B) (x : EntityId × Nat)
    (c : Component K B) : Prop :=
  w.cell? x = some (some c) ∨ ⟨x.1, x.2, c⟩ ∈ out

/-- A handle is held at a place. -/
def Holds (out : List (Executing K B)) (w : World K B) (x : EntityId × Nat) (h : WaitHandle) :
    Prop :=
  ∃ c, w.Present out x c ∧ c.holds? = some h

/-- What is present when one more component executes. -/
theorem present_cons {out : List (Executing K B)} {w : World K B} {e : EntityId} {index : Nat}
    {c d : Component K B} {x : EntityId × Nat} :
    w.Present (⟨e, index, c⟩ :: out) x d ↔ w.Present out x d ∨ x = (e, index) ∧ d = c := by
  have here : (⟨x.1, x.2, d⟩ : Executing K B) = ⟨e, index, c⟩ ↔ x = (e, index) ∧ d = c := by
    rw [Executing.mk.injEq, Prod.ext_iff, and_assoc]
  rw [Present, Present, List.mem_cons, here]
  constructor
  · rintro (hcell | heq | hmem)
    · exact .inl (.inl hcell)
    · exact .inr heq
    · exact .inl (.inr hmem)
  · rintro ((hcell | hmem) | heq)
    · exact .inl hcell
    · exact .inr (.inr hmem)
    · exact .inr (.inl heq)

/-- A component that executes is present. -/
theorem present_executing (out : List (Executing K B)) (w : World K B) (e : EntityId) (index : Nat)
    (c : Component K B) : w.Present (⟨e, index, c⟩ :: out) (e, index) c :=
  present_cons.2 (.inr ⟨rfl, rfl⟩)

/-- A component stays present when one more executes. -/
theorem Present.cons {out : List (Executing K B)} {w : World K B} {x : EntityId × Nat}
    {d : Component K B} (h : w.Present out x d) (y : Executing K B) : w.Present (y :: out) x d :=
  h.imp_right (List.mem_cons_of_mem y)

/-! ## Accounting -/

/-- Everything that is known of handles and of the components that hold them, when at least `floor`
handles have been issued. -/
structure Accounted (floor : Nat) (out : List (Executing K B)) (w : World K B) : Prop where
  vacant : ∀ x ∈ out, x.actor.index < w.entities.size ∧
    ((w.slots? x.actor).isSome → w.cell? x.place = some none)
  distinct : out.Pairwise fun x y => x.place ≠ y.place
  actors : ∀ e, (w.slots? e).isSome → (w.actor? e).isSome
  released : ∀ x c, w.Present out x c → c.Released
  issued : floor ≤ w.waits.issued.size
  ledger : Ledger (w.Holds out) w.waits

namespace Accounted

variable {floor : Nat} {out out' : List (Executing K B)} {w w' : World K B}

/-- Components may change and go away when what they held is complete. -/
theorem settle (h : w.Accounted floor out)
    (vacant : ∀ x ∈ out', x.actor.index < w'.entities.size ∧
      ((w'.slots? x.actor).isSome → w'.cell? x.place = some none))
    (distinct : out'.Pairwise fun x y => x.place ≠ y.place)
    (actors : ∀ e, (w'.slots? e).isSome → (w'.actor? e).isSome)
    (progress : w.waits.Progress w'.waits)
    (origin : ∀ x c, w'.Present out' x c →
      c.Released ∧ ∀ k, c.holds? = some k → w.Holds out x k)
    (settled : ∀ x c k, w.Present out x c → c.holds? = some k →
      w'.Holds out' x k ∨ w'.waits.isComplete k = true) : w'.Accounted floor out' where
  vacant := vacant
  distinct := distinct
  actors := actors
  released x c hc := (origin x c hc).1
  issued := by
    rw [progress.size]
    exact h.issued
  ledger := by
    refine h.ledger.settle progress (fun x k hk => ?_) fun x k hk => ?_
    · obtain ⟨c, hc, heq⟩ := hk
      exact (origin x c hc).2 k heq
    · obtain ⟨c, hc, heq⟩ := hk
      exact settled x c k hc heq

/-- Instead of the number of issued handles, any smaller one may be kept account of. -/
theorem since {floor' : Nat} (h : w.Accounted floor out) (le : floor' ≤ w.waits.issued.size) :
    w.Accounted floor' out :=
  { h with issued := le }

/-- The account stays in order as long as the components stay in their places. -/
theorem same (h : w.Accounted floor out) (same : SameCells w w') : w'.Accounted floor out := by
  refine h.settle (fun x hx => ?_) h.distinct (fun e he => ?_) same.progress (fun x c hc => ?_)
    fun x c k hc hk => ?_
  · rw [same.size, same.slots, same.cells]
    exact h.vacant x hx
  · rw [same.actors]
    exact h.actors e (same.slots e ▸ he)
  · have hc' : w.Present out x c := by rwa [Present, same.cells] at hc
    exact ⟨h.released x c hc', fun k hk => ⟨c, hc', hk⟩⟩
  · refine .inl ⟨c, ?_, hk⟩
    rwa [Present, same.cells]

/-- The account stays in order as long as the slots are the same. -/
theorem sameSlots (h : w.Accounted floor out) (same : SameSlots w w') : w'.Accounted floor out :=
  h.same same.sameCells

section Executing

variable {e : EntityId} {index : Nat} {c c' : Component K B}

/-- An executing component changes. -/
theorem become (h : w.Accounted floor (⟨e, index, c⟩ :: out)) (released : c'.Released)
    (fewer : ∀ k, c'.holds? = some k → c.holds? = some k)
    (settled : ∀ k, c.holds? = some k → c'.holds? = some k ∨ w.waits.isComplete k = true) :
    w.Accounted floor (⟨e, index, c'⟩ :: out) := by
  have executing := present_executing out w e index
  refine h.settle (List.forall_mem_cons.2 (List.forall_mem_cons.1 h.vacant))
    (List.pairwise_cons.2 (List.pairwise_cons.1 h.distinct)) h.actors (.refl _)
    (fun x d hd => ?_) fun x d k hd hk => ?_
  · rcases present_cons.1 hd with hold | ⟨rfl, rfl⟩
    · exact ⟨h.released x d (hold.cons _), fun k hk => ⟨d, hold.cons _, hk⟩⟩
    · exact ⟨released, fun k hk => ⟨c, executing c, fewer k hk⟩⟩
  · rcases present_cons.1 hd with hold | ⟨rfl, rfl⟩
    · exact .inl ⟨d, hold.cons _, hk⟩
    · rcases settled k hk with hk' | hcomplete
      · exact .inl ⟨c', executing c', hk'⟩
      · exact .inr hcomplete

/-- An executing component goes away. -/
theorem forget (h : w.Accounted floor (⟨e, index, c⟩ :: out))
    (complete : ∀ k, c.holds? = some k → w.waits.isComplete k = true) :
    w.Accounted floor out := by
  refine h.settle (List.forall_mem_cons.1 h.vacant).2 (List.pairwise_cons.1 h.distinct).2 h.actors
    (.refl _) (fun x d hd => ?_) fun x d k hd hk => ?_
  · exact ⟨h.released x d (hd.cons _), fun k hk => ⟨d, hd.cons _, hk⟩⟩
  · rcases present_cons.1 hd with hold | ⟨rfl, rfl⟩
    · exact .inl ⟨d, hold, hk⟩
    · exact .inr (complete k hk)

/-- A component leaves its cell to execute. -/
theorem take (h : w.Accounted floor out) (hcell : w.cell? (e, index) = some (some c)) :
    (w.setComponent e index none).Accounted floor (⟨e, index, c⟩ :: out) := by
  have cells := cell?_setComponent hcell none
  have slots : ∀ x, ((w.setComponent e index none).slots? x).isSome = (w.slots? x).isSome :=
    isSome_slots?_modifySlot w e index _
  refine h.settle (List.forall_mem_cons.2 ⟨⟨?_, fun _ => ?_⟩, fun x hx => ⟨?_, fun hslots => ?_⟩⟩)
    (List.pairwise_cons.2 ⟨fun x hx heq => ?_, h.distinct⟩) (fun x hx => ?_) (.refl _)
    (fun x d hd => ?_) fun x d k hd hk => ?_
  · exact Array.size_modify.symm ▸ index_lt_of_slots? (slots?_of_cell? hcell)
  · exact (cells _).trans (if_pos rfl)
  · exact Array.size_modify.symm ▸ (h.vacant x hx).1
  · rw [cells]
    split
    · rfl
    · exact (h.vacant x hx).2 (slots x.actor ▸ hslots)
  · -- whatever executes has left its cell empty
    rw [show (e, index) = x.place from heq] at hcell
    rw [(h.vacant x hx).2 (slots?_of_cell? hcell)] at hcell
    cases hcell
  · rw [actor?_modifySlot]
    exact h.actors x (slots x ▸ hx)
  · have hpresent : w.Present out x d := by
      rcases present_cons.1 hd with (hcell' | hmem) | ⟨rfl, rfl⟩
      · rw [cells] at hcell'
        split at hcell'
        · cases hcell'
        · exact .inl hcell'
      · exact .inr hmem
      · exact .inl hcell
    exact ⟨h.released x d hpresent, fun k hk => ⟨d, hpresent, hk⟩⟩
  · refine .inl ⟨d, present_cons.2 ?_, hk⟩
    rcases hd with hcell' | hmem
    · by_cases hx : x = (e, index)
      · subst hx
        cases hcell.symm.trans hcell'
        exact .inr ⟨rfl, rfl⟩
      · exact .inl (.inl (by rwa [cells, if_neg hx]))
    · exact .inl (.inr hmem)

/-- An executing component goes back into its cell. -/
theorem put (h : w.Accounted floor (⟨e, index, c⟩ :: out)) (hslots : (w.slots? e).isSome) :
    (w.setComponent e index (some c)).Accounted floor out := by
  obtain ⟨hhead, htail⟩ := List.forall_mem_cons.1 h.vacant
  obtain ⟨hfirst, hrest⟩ := List.pairwise_cons.1 h.distinct
  have hempty : w.cell? (e, index) = some none := hhead.2 hslots
  have cells := cell?_setComponent hempty (some c)
  have slots : ∀ x, ((w.setComponent e index (some c)).slots? x).isSome = (w.slots? x).isSome :=
    isSome_slots?_modifySlot w e index _
  refine h.settle (fun x hx => ⟨?_, fun hslots => ?_⟩) hrest (fun x hx => ?_) (.refl _)
    (fun x d hd => ?_) fun x d k hd hk => ?_
  · exact Array.size_modify.symm ▸ (htail x hx).1
  · rw [cells, if_neg (fun heq => hfirst x hx heq.symm)]
    exact (htail x hx).2 (slots x.actor ▸ hslots)
  · rw [actor?_modifySlot]
    exact h.actors x (slots x ▸ hx)
  · have hpresent : w.Present (⟨e, index, c⟩ :: out) x d := by
      rcases hd with hcell | hmem
      · rw [cells] at hcell
        split at hcell
        · rename_i hx
          subst hx
          cases hcell
          exact present_executing out w e index c
        · exact .inl hcell
      · exact .inr (List.mem_cons_of_mem _ hmem)
    exact ⟨h.released x d hpresent, fun k hk => ⟨d, hpresent, hk⟩⟩
  · refine .inl ⟨d, ?_, hk⟩
    rcases present_cons.1 hd with (hcell | hmem) | ⟨rfl, rfl⟩
    · by_cases hx : x = (e, index)
      · subst hx
        rw [hempty] at hcell
        cases hcell
      · exact .inl (by rwa [cells, if_neg hx])
    · exact .inr hmem
    · exact .inl (by rw [cells, if_pos rfl])

end Executing

/-! ## Entities coming and going -/

/-- An entity without components is created. -/
theorem create (h : w.Accounted floor out) {entity : Entity K B}
    (empty : ∀ slots, entity.slots = some slots → slots = #[] ∧ entity.actor.isSome) :
    (w.create entity).2.Accounted floor out := by
  have hentity := entity?_create w entity
  have cells : ∀ x, (w.create entity).2.cell? x = w.cell? x := by
    intro x
    rw [cell?, cell?, slot?, slot?, slots?, slots?, hentity]
    split
    · rename_i hx
      rw [show w.entity? x.1 = none by
        unfold entity?
        rw [Array.getElem?_eq_none (by omega)]
        rfl]
      cases hslots : entity.slots with
      | none => simp [hslots]
      | some slots => simp [hslots, (empty slots hslots).1]
    · rfl
  refine h.settle (fun x hx => ?_) h.distinct (fun x hx => ?_) (.refl _) (fun x c hc => ?_)
    fun x c k hc hk => ?_
  · obtain ⟨hlt, hempty⟩ := h.vacant x hx
    refine ⟨(Array.size_push _).symm ▸ Nat.lt_succ_of_lt hlt, fun hslots => ?_⟩
    rw [cells]
    refine hempty ?_
    rwa [slots?, hentity, if_neg (Nat.ne_of_lt hlt)] at hslots
  · rw [slots?, hentity] at hx
    rw [actor?, hentity]
    split at hx
    · rename_i hnew
      rw [if_pos hnew]
      obtain ⟨slots, hslots⟩ := Option.isSome_iff_exists.1 hx
      exact (empty slots hslots).2
    · rename_i hold
      rw [if_neg hold]
      exact h.actors x hx
  · have hc' : w.Present out x c := by rwa [Present, cells] at hc
    exact ⟨h.released x c hc', fun k hk => ⟨c, hc', hk⟩⟩
  · refine .inl ⟨c, ?_, hk⟩
    rwa [Present, cells]

/-- An entity is dropped with its components. -/
theorem despawn (h : w.Accounted floor out) (e : EntityId) :
    (w.despawn e).2.Accounted floor out := by
  have hentity := entity?_despawn w e
  have gone : ∀ x : EntityId × Nat, x.1 = e → (w.despawn e).2.cell? x = none := by
    intro x hx
    rw [cell?, slot?, slots?, hentity, if_pos hx]
    rfl
  have cells : ∀ x : EntityId × Nat, x.1 ≠ e → (w.despawn e).2.cell? x = w.cell? x := by
    intro x hx
    rw [cell?, slot?, slots?, hentity, if_neg hx]
    rfl
  have spared : ∀ x, ((w.despawn e).2.slots? x).isSome → x ≠ e ∧ (w.slots? x).isSome := by
    intro x hx
    rw [slots?, hentity] at hx
    split at hx
    · cases hx
    · rename_i hne
      exact ⟨hne, hx⟩
  refine h.settle (fun x hx => ?_) h.distinct (fun x hx => ?_) (progress_despawn w e)
    (fun x c hc => ?_) fun x c k hc hk => ?_
  · refine ⟨(size_despawn w e).symm ▸ (h.vacant x hx).1, fun hslots => ?_⟩
    obtain ⟨hne, hold⟩ := spared _ hslots
    rw [cells x.place hne]
    exact (h.vacant x hx).2 hold
  · obtain ⟨hne, hold⟩ := spared _ hx
    rw [actor?, hentity, if_neg hne]
    exact h.actors x hold
  · have hc' : w.Present out x c := by
      refine hc.imp_left fun hcell => ?_
      by_cases hx : x.1 = e
      · rw [gone x hx] at hcell
        cases hcell
      · rwa [cells x hx] at hcell
    exact ⟨h.released x c hc', fun k hk => ⟨c, hc', hk⟩⟩
  · rcases hc with hcell | hmem
    · by_cases hx : x.1 = e
      · obtain ⟨serial, hlt, rfl⟩ := h.ledger.issued ⟨c, .inl hcell, hk⟩
        subst hx
        exact .inr (isComplete_despawn hcell hlt hk)
      · exact .inl ⟨c, .inl (by rwa [cells x hx]), hk⟩
    · exact .inl ⟨c, .inr hmem, hk⟩

/-- Reclaiming an entity keeps the account in order. -/
theorem reclaim (h : w.Accounted floor out) (e : EntityId) :
    (w.reclaim e).Accounted floor out := by
  have detached := (h.sameSlots (.of_onlyPlaces (onlyPlaces_detach w e))).despawn e
  exact detached.sameSlots (.of_entities rfl (.refl _))

/-! ## Components coming and changing in their cells -/

section Cells

variable {e : EntityId} {index : Nat} {c c' : Component K B} {waits' : Waits}

/-- Completing handles keeps the account in order. -/
theorem progress (h : w.Accounted floor out) (progress : w.waits.Progress waits') :
    ({ w with waits := waits' } : World K B).Accounted floor out :=
  h.sameSlots (.of_entities rfl progress)

/-- An executing component takes a handle that is issued. -/
theorem handOut (h : w.Accounted floor (⟨e, index, c⟩ :: out))
    (progress : w.waits.issue.2.Progress waits') (released : c'.Released)
    (taken : c'.holds? = some w.waits.issue.1)
    (settled : ∀ k, c.holds? = some k → waits'.isComplete k = true) :
    ({ w with waits := waits' } : World K B).Accounted (w.waits.issued.size + 1)
      (⟨e, index, c'⟩ :: out) := by
  refine ⟨List.forall_mem_cons.2 (List.forall_mem_cons.1 h.vacant),
    List.pairwise_cons.2 (List.pairwise_cons.1 h.distinct), h.actors, fun x d hd => ?_, ?_,
    h.ledger.issue (x := (e, index)) progress ?_ (fun x k hk => ?_) fun x k hk => ?_⟩
  · rcases present_cons.1 hd with hold | ⟨rfl, rfl⟩
    · exact h.released x d (hold.cons _)
    · exact released
  · exact Nat.le_of_eq (progress.size.trans (Waits.size_issue _)).symm
  · exact .inl ⟨c', present_executing out w e index c', taken⟩
  · obtain ⟨d, hd, hk⟩ := hk
    rcases present_cons.1 hd with hold | ⟨rfl, rfl⟩
    · exact .inl ⟨d, hold.cons _, hk⟩
    · exact .inr ⟨rfl, Option.some.inj (hk.symm.trans taken)⟩
  · obtain ⟨d, hd, hk⟩ := hk
    rcases present_cons.1 hd with hold | ⟨rfl, rfl⟩
    · exact .inl ⟨d, hold.cons _, hk⟩
    · exact .inr (settled k hk)

/-- A component changes in its cell as it may change when it executes. -/
theorem exchange {floor' : Nat} (h : w.Accounted floor out)
    (hcell : w.cell? (e, index) = some (some c))
    (became : ∀ {v : World K B}, v.waits = w.waits → v.Accounted floor (⟨e, index, c⟩ :: out) →
      ({ v with waits := waits' } : World K B).Accounted floor' (⟨e, index, c'⟩ :: out)) :
    (({ w with waits := waits' } : World K B).setComponent e index (some c')).Accounted floor'
      out := by
  obtain ⟨v, hv⟩ : ∃ v, v = w.setComponent e index none := ⟨_, rfl⟩
  have vcells : ∀ x, v.cell? x = if x = (e, index) then some none else w.cell? x := by
    rw [hv]
    exact cell?_setComponent hcell none
  have vslots : ∀ x, (v.slots? x).isSome = (w.slots? x).isSome := by
    intro x
    rw [hv]
    exact isSome_slots?_modifySlot w e index _ x
  have changed := became (v := v) (hv ▸ rfl) (hv ▸ h.take hcell)
  have hslots : (v.slots? e).isSome := (vslots e).trans (slots?_of_cell? hcell)
  refine (changed.put hslots).same ⟨?_, fun x => ?_, fun x => ?_, fun x => ?_, .refl _⟩
  · have vsize : v.entities.size = w.entities.size := hv ▸ Array.size_modify
    exact Array.size_modify.trans (Array.size_modify.trans vsize).symm
  · exact (isSome_slots?_modifySlot _ e index _ x).trans
      ((isSome_slots?_modifySlot _ e index _ x).trans (vslots x)).symm
  · have vactor : v.actor? x = w.actor? x := hv ▸ actor?_modifySlot w e index _ x
    rw [actor?_modifySlot, actor?_modifySlot]
    exact congrArg Option.isSome vactor.symm
  · refine (cell?_setComponent (w := { w with waits := waits' }) hcell (some c') x).trans
      (Eq.trans ?_ (cell?_setComponent (w := { v with waits := waits' })
        ((vcells (e, index)).trans (if_pos rfl)) (some c') x).symm)
    split
    · rfl
    · rename_i hx
      exact ((vcells x).trans (if_neg hx)).symm

/-- A component that holds nothing is added. -/
theorem push (h : w.Accounted floor out) {slots : Array (Slot K B)}
    (hslots : w.slots? e = some slots) {slot : Slot K B} (hc : slot.component = some c)
    (free : c.holds? = none) (released : c.Released) :
    (w.modifySlots e fun slots => slots.push slot).Accounted floor out := by
  have cells := cell?_push hslots slot
  have fresh := cell?_size hslots
  refine h.settle (fun x hx => ⟨?_, fun there => ?_⟩) h.distinct (fun x hx => ?_) (.refl _)
    (fun x d hd => ?_) fun x d k hd hk => ?_
  · exact Array.size_modify.symm ▸ (h.vacant x hx).1
  · rw [isSome_slots?_modifySlots] at there
    rw [cells, if_neg]
    · exact (h.vacant x hx).2 there
    · intro heq
      have hempty := (h.vacant x hx).2 there
      rw [heq, fresh] at hempty
      cases hempty
  · rw [actor?_modifySlots]
    rw [isSome_slots?_modifySlots] at hx
    exact h.actors x hx
  · have hpresent : w.Present out x d ∨ d = c := by
      rcases hd with hcell | hmem
      · rw [cells] at hcell
        split at hcell
        · rw [hc] at hcell
          cases hcell
          exact .inr rfl
        · exact .inl (.inl hcell)
      · exact .inl (.inr hmem)
    rcases hpresent with hpresent | rfl
    · exact ⟨h.released x d hpresent, fun k hk => ⟨d, hpresent, hk⟩⟩
    · refine ⟨released, fun k hk => ?_⟩
      rw [free] at hk
      cases hk
  · refine .inl ⟨d, hd.imp_left fun hcell => ?_, hk⟩
    rw [cells, if_neg]
    · exact hcell
    · rintro rfl
      rw [fresh] at hcell
      cases hcell

/-- A component is added with a handle that is issued. -/
theorem pushHolding (h : w.Accounted floor out) {slots : Array (Slot K B)}
    (hslots : w.slots? e = some slots) {slot : Slot K B} (hc : slot.component = some c)
    (taken : c.holds? = some w.waits.issue.1) (released : c.Released) :
    (({ w with waits := w.waits.issue.2 } : World K B).modifySlots e
      fun slots => slots.push slot).Accounted (w.waits.issued.size + 1) out := by
  -- something that holds nothing is added, and exchanged for the component
  obtain ⟨v, hv⟩ : ∃ v, v = w.modifySlots e fun slots =>
    slots.push { slot with component := some .listener } := ⟨_, rfl⟩
  have vcells : ∀ x, v.cell? x = if x = (e, slots.size) then some (some .listener)
      else w.cell? x := by
    rw [hv]
    exact cell?_push hslots _
  have vwaits : v.waits = w.waits := hv ▸ rfl
  have idle : v.Accounted floor out :=
    hv ▸ h.push (c := .listener) hslots rfl rfl fun m hm => nomatch hm
  have hcell : v.cell? (e, slots.size) = some (some .listener) :=
    (vcells _).trans (if_pos rfl)
  have exchanged : (({ v with waits := w.waits.issue.2 } : World K B).setComponent e slots.size
      (some c)).Accounted (w.waits.issued.size + 1) out := by
    refine idle.exchange hcell fun {u} hu hexecuting => ?_
    have uwaits : u.waits = w.waits := hu.trans vwaits
    rw [← uwaits] at taken ⊢
    exact hexecuting.handOut (.refl _) released taken fun k hk => nomatch hk
  refine exchanged.same ⟨?_, fun x => ?_, fun x => ?_, fun x => ?_, .refl _⟩
  · have vsize : v.entities.size = w.entities.size := hv ▸ Array.size_modify
    exact Array.size_modify.trans (Array.size_modify.trans vsize).symm
  · have vslots : (v.slots? x).isSome = (w.slots? x).isSome :=
      hv ▸ isSome_slots?_modifySlots w e x _
    exact (isSome_slots?_modifySlots _ e x _).trans
      ((isSome_slots?_modifySlot _ e slots.size _ x).trans vslots).symm
  · have vactor : v.actor? x = w.actor? x := hv ▸ actor?_modifySlots w e x _
    rw [actor?_modifySlots, actor?_modifySlot]
    exact congrArg Option.isSome vactor.symm
  · refine (cell?_push (w := { w with waits := w.waits.issue.2 }) hslots slot x).trans
      (Eq.trans ?_ (cell?_setComponent (w := { v with waits := w.waits.issue.2 }) hcell (some c)
        x).symm)
    rw [hc]
    split
    · rfl
    · rename_i hx
      exact ((vcells x).trans (if_neg hx)).symm

end Cells

/-! ## Adding and retargeting -/

/-- Adding a component that holds no handle keeps the account in order. -/
theorem addComponent [Behavior K B] (h : w.Accounted floor out) (e : EntityId)
    {c : Component K B} (free : c.holds? = none) (released : c.Released) :
    (w.addComponent e c).2.Accounted floor out := by
  unfold World.addComponent
  split
  · rename_i hslots
    exact h.push hslots rfl free released
  · exact h.sameSlots (.trans (.of_onlyPlaces (AgreesOn.record w _)) (.dropComponent _ c))

/-- Where there is no actor to take a component its handle is complete at once. -/
theorem addHolding [Behavior K B] (h : w.Accounted floor out) (e : EntityId) {c : Component K B}
    (taken : c.holds? = some w.waits.issue.1) (released : c.Released) :
    (({ w with waits := w.waits.issue.2 } : World K B).addComponent e c).2.Accounted
      (w.waits.issued.size + 1) out := by
  unfold World.addComponent
  split
  · rename_i hslots
    exact h.pushHolding hslots rfl taken released
  · have dropped := (SameSlots.dropComponent (({ w with waits := w.waits.issue.2 } : World K B).warn
      s!"add_actor_component: entity {e.index} is not an actor") c).sameCells
    refine ⟨fun x hx => ?_, h.distinct, fun x hx => ?_, fun x d hd => ?_, ?_,
      h.ledger.issue (x := (e, 0)) dropped.progress (.inr ?_) (fun x k hk => .inl ?_)
        fun x k hk => .inl ?_⟩
    · rw [dropped.size, dropped.slots, dropped.cells]
      exact h.vacant x hx
    · rw [dropped.actors]
      rw [dropped.slots] at hx
      exact h.actors x hx
    · rw [Present, dropped.cells] at hd
      exact h.released x d hd
    · rw [dropped.progress.size]
      exact Nat.le_of_eq w.waits.size_issue.symm
    · exact isComplete_dropComponent _ (w.waits.size_issue.symm ▸ Nat.lt_succ_self _) taken
    · obtain ⟨d, hd, hk⟩ := hk
      rw [Present, dropped.cells] at hd
      exact ⟨d, hd, hk⟩
    · obtain ⟨d, hd, hk⟩ := hk
      refine ⟨d, ?_, hk⟩
      rw [Present, dropped.cells]
      exact hd

/-- What an executing component holds may be let go of. -/
theorem letGo {e : EntityId} {index : Nat} {c : Component K B}
    (h : w.Accounted floor (⟨e, index, c⟩ :: out)) (c' : Component K B)
    (free : c'.holds? = none) (released : c'.Released) :
    (w.dropComponent c).Accounted floor (⟨e, index, c'⟩ :: out) := by
  refine (h.sameSlots (.dropComponent w c)).become released (fun k hk => ?_) fun k hk => .inr ?_
  · rw [free] at hk
    cases hk
  · obtain ⟨serial, hlt, rfl⟩ :=
      h.ledger.issued ⟨c, present_executing out w e index c, hk⟩
    exact isComplete_dropComponent w hlt hk

/-- Retargeting a mover without a handle keeps the account in order. -/
theorem retarget [Scalar K] (h : w.Accounted floor out) (e : EntityId) (target : Vec3 K)
    (duration : K) :
    (w.retarget e target duration none).2.Accounted floor out := by
  rcases w.retarget_cases e target duration none with heq | ⟨index, m, -, hcell, heq⟩
  · rw [heq]
    exact h
  · rw [heq, dropComponent_eq]
    refine h.exchange hcell fun {v} hv hexecuting => ?_
    rw [← hv, ← dropComponent_eq]
    exact hexecuting.letGo _ rfl fun m' hm' _ => by cases hm'; rfl

/-- A move may start with a handle that is issued. -/
theorem retargetHolding [Scalar K] (h : w.Accounted floor out) {e : EntityId}
    {target : Vec3 K} {duration : K} {v : World K B}
    (hv : ({ w with waits := w.waits.issue.2 } : World K B).retarget e target duration
      (some w.waits.issue.1) = (true, v)) : v.Accounted (w.waits.issued.size + 1) out := by
  rcases retarget_cases { w with waits := w.waits.issue.2 } e target duration
    (some w.waits.issue.1) with heq | ⟨index, m, -, hcell, heq⟩
  · cases heq.symm.trans hv
  · cases heq.symm.trans hv
    have dropped :=
      (SameSlots.dropComponent { w with waits := w.waits.issue.2 } (.mover m)).sameCells
    have complete : ∀ serial, serial < w.waits.issue.2.issued.size →
        m.done = some (.issued serial) →
        (dropComponent { w with waits := w.waits.issue.2 } (.mover m)).waits.isComplete
          (.issued serial) = true :=
      fun serial hlt hk => isComplete_dropComponent _ hlt hk
    rw [dropComponent_eq] at dropped complete ⊢
    refine h.exchange hcell fun {u} hu hexecuting => ?_
    rw [← hu] at dropped complete ⊢
    refine hexecuting.handOut dropped.progress (fun m' hm' hfinished => ?_) rfl fun k hk => ?_
    · cases hm'
      cases hfinished
    · obtain ⟨serial, hlt, rfl⟩ :=
        hexecuting.ledger.issued ⟨_, present_executing out u e index _, hk⟩
      exact complete serial (u.waits.size_issue.symm ▸ Nat.lt_succ_of_lt hlt) hk

end Accounted

end World

end SheepScene
