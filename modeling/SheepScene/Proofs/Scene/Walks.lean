import SheepScene.Proofs.Scene.Destruction
import SheepScene.Proofs.Scene.Siblings

/-!
# Walks down the tree

Forgetting matrices and flagging actors go through a list of entities that are still to be dealt
with: the last one is taken off, and its children are put on. Nothing bounds such a walk and nothing
is remembered of where it has been. It comes to an end since links to children form no cycle, with
the part of the forest that is still to be gone through as the measure, and it comes to nobody twice
since every child is on one list only (`World.walks_down`).
-/

set_option autoImplicit false

namespace SheepScene

/-! ## Loops -/

namespace Loop

variable {σ ρ : Type}

/-- A loop gets from one state to another. Each round goes on with the next state, or the loop ends
with a result. -/
def Leads (round : σ → Except ρ σ) : σ → σ → Prop :=
  Relation.ReflTransGen fun s s' => round s = .ok s'

/-- A loop ends with a result. -/
def Ends (round : σ → Except ρ σ) (s : σ) (result : ρ) : Prop :=
  ∃ s', Leads round s s' ∧ round s' = .error result

variable {round : σ → Except ρ σ} {I : σ → Prop} {s s' : σ}

/-- What every round keeps is kept by the loop. -/
theorem Leads.keeps (h : Leads round s s') (step : ∀ {s s'}, I s → round s = .ok s' → I s')
    (start : I s) : I s' := by
  induction h with
  | refl => exact start
  | tail _ next ih => exact step ih next

/-- A loop that does less with every round ends, and keeps what every round keeps. -/
theorem exists_end (measure : σ → Nat)
    (step : ∀ {s s'}, I s → round s = .ok s' → I s' ∧ measure s' < measure s) (start : I s) :
    ∃ s' result, Leads round s s' ∧ round s' = .error result ∧ I s' := by
  induction size : measure s using Nat.strongRecOn generalizing s with
  | _ n ih =>
    cases next : round s with
    | error result => exact ⟨s, result, .refl, next, start⟩
    | ok v =>
      obtain ⟨kept, less⟩ := step start next
      obtain ⟨s', result, leads, ended, last⟩ := ih (measure v) (size ▸ less) kept rfl
      exact ⟨s', result, .head next leads, ended, last⟩

end Loop

variable {K B : Type}

namespace World

variable {w : World K B}

/-! ## Everything under an entity, once -/

/-- An entity and everything under it, at most `depth` levels down, the last children first. -/
def walkFrom (w : World K B) (depth : Nat) (e : EntityId) : List EntityId :=
  match depth with
  | 0 => [e]
  | depth + 1 => e :: (w.children e).reverse.flatMap (w.walkFrom depth)

/-- An entity and everything under it, the last children first. -/
def walk (w : World K B) (e : EntityId) : List EntityId :=
  w.walkFrom w.entities.size e

/-- The walk has what the subtree has, in another order. -/
theorem walkFrom_perm (w : World K B) (depth : Nat) (e : EntityId) :
    (w.walkFrom depth e).Perm (w.subtreeFrom depth e) := by
  induction depth generalizing e with
  | zero => exact .refl _
  | succ depth ih => exact .cons e ((List.reverse_perm _).flatMap fun x _ => ih x)

/-- A subtree has only those under its root. -/
theorem under_of_mem_subtreeFrom {depth : Nat} {e x : EntityId} (h : x ∈ w.subtreeFrom depth e) :
    w.Under x e := by
  induction depth generalizing e with
  | zero => rw [List.mem_singleton.1 h]
  | succ depth ih =>
    rcases List.mem_cons.1 h with rfl | h
    · exact .refl
    · obtain ⟨c, child, h⟩ := List.mem_flatMap.1 h
      exact .head child (ih h)

/-- The walk comes to everybody under where it begins. -/
theorem mem_walk_iff {e x : EntityId} : x ∈ w.walk e ↔ w.Under x e :=
  (walkFrom_perm w _ e).mem_iff.trans ⟨under_of_mem_subtreeFrom, mem_subtree_of_under⟩

/-- Children who have a place have their parent's place above them. -/
theorem Traceable.below_of_under (h : w.Traceable) {e x : EntityId}
    (place : (w.transform? x).isSome) (under : w.Under x e) : w.Below x e :=
  (h.below_of_mem_subtreeFrom place (mem_subtree_of_under under)).2

/-- Whoever is below a place is under it. -/
theorem Fostered.under_of_below (h : w.Fostered) {e x : EntityId}
    (place : (w.transform? e).isSome) (below : w.Below x e) : w.Under x e := by
  induction below using Relation.ReflTransGen.head_induction_on with
  | refl => exact .refl
  | @head x p up above ih =>
    have there : (w.transform? p).isSome := by
      rcases Relation.ReflTransGen.cases_head above with rfl | ⟨q, up', -⟩
      · exact place
      · exact transform?_of_above up'
    exact ih.tail (h.child x p up there)

/-- Links to children form no cycle: whoever has children has a place. -/
theorem Traceable.acyclic_children (h : w.Traceable) (e : EntityId) :
    ¬ Relation.TransGen w.HasChild e e := by
  intro cycle
  obtain ⟨c, child, -⟩ := Relation.TransGen.head'_iff.1 cycle
  have place := transform?_of_mem_children child
  obtain ⟨p, under, last⟩ := Relation.TransGen.tail'_iff.1 cycle
  have up := h.parent e p last place
  exact h.acyclic e (.head' up (h.below_of_under (transform?_of_mem_children last) under))

/-- Everybody on a way down is under where it begins. -/
theorem Way.under {e x y : EntityId} {l : List EntityId} (h : w.Way e l x) (hy : y ∈ e :: l) :
    w.Under y e := by
  induction l generalizing e with
  | nil => rw [List.mem_singleton.1 hy]
  | cons next rest ih =>
    rcases List.mem_cons.1 hy with rfl | hy
    · exact .refl
    · exact .head h.1 (ih h.2 hy)

/-- More levels than there are to go down make no difference. -/
theorem walkFrom_succ_eq {depth : Nat} {e : EntityId}
    (enough : ∀ l x, w.Way e l x → l.length ≤ depth) :
    w.walkFrom (depth + 1) e = w.walkFrom depth e := by
  induction depth generalizing e with
  | zero =>
    have childless : w.children e = [] := by
      refine List.eq_nil_iff_forall_not_mem.2 fun c child => ?_
      have := enough [c] c ⟨child, rfl⟩
      rw [List.length_singleton] at this
      omega
    change e :: (w.children e).reverse.flatMap (w.walkFrom 0) = [e]
    rw [childless]
    rfl
  | succ depth ih =>
    rw [walkFrom, walkFrom]
    refine congrArg (e :: ·) (List.flatMap_congr fun c child => ih fun l x way => ?_)
    exact Nat.le_of_succ_le_succ (enough (c :: l) x ⟨List.mem_reverse.1 child, way⟩)

section Once

variable (acyclic : ∀ e, ¬ Relation.TransGen w.HasChild e e)
include acyclic

/-- No way down comes to anybody twice. -/
theorem Way.nodup {e x : EntityId} {l : List EntityId} (h : w.Way e l x) : (e :: l).Nodup := by
  induction l generalizing e with
  | nil => exact List.nodup_singleton e
  | cons next rest ih =>
    exact List.nodup_cons.2 ⟨fun back => acyclic e (.head' h.1 (h.2.under back)), ih h.2⟩

/-- As many levels as there are entities are all levels. -/
theorem walk_eq (e : EntityId) : w.walk e = e :: (w.children e).reverse.flatMap w.walk :=
  (walkFrom_succ_eq fun _ _ way => way.length_le (way.nodup acyclic)).symm

/-- Nobody is under two children of an entity: on the one way up from there, one of the two would
come before the other. -/
theorem Apart.eq_of_under (h : w.Apart) {e c d x : EntityId} (hc : w.HasChild e c)
    (hd : w.HasChild e d) (under : w.Under x c) (under' : w.Under x d) : c = d := by
  have same : ∀ {c d : EntityId}, w.HasChild e c → w.HasChild e d → w.Under c d → c = d := by
    intro c d hc hd under
    rcases Relation.ReflTransGen.cases_tail under with same | ⟨p, under, last⟩
    · exact same
    · obtain rfl := h.one c p e last hc
      exact absurd (.head' hd under) (acyclic p)
  have single : Relator.RightUnique (Function.swap w.HasChild) := fun x p q => h.one x p q
  rcases Relation.ReflTransGen.total_of_right_unique single (Relation.reflTransGen_swap.2 under)
    (Relation.reflTransGen_swap.2 under') with up | up
  · exact same hc hd (Relation.reflTransGen_swap.1 up)
  · exact (same hd hc (Relation.reflTransGen_swap.1 up)).symm

/-- Nobody is come to twice. -/
theorem Apart.nodup_walkFrom (h : w.Apart) (depth : Nat) (e : EntityId) :
    (w.walkFrom depth e).Nodup := by
  have under : ∀ {depth : Nat} {c x : EntityId}, x ∈ w.walkFrom depth c → w.Under x c :=
    fun member => under_of_mem_subtreeFrom ((walkFrom_perm w _ _).mem_iff.1 member)
  induction depth generalizing e with
  | zero => exact List.nodup_singleton e
  | succ depth ih =>
    refine List.nodup_cons.2 ⟨fun back => ?_, List.nodup_flatMap.2 ⟨fun c _ => ih c, ?_⟩⟩
    · obtain ⟨c, child, back⟩ := List.mem_flatMap.1 back
      exact acyclic e (.head' (List.mem_reverse.1 child) (under back))
    · refine (List.nodup_reverse.2 (h.nodup e)).imp_of_mem fun hc hd other x member member' => ?_
      exact other (h.eq_of_under acyclic (List.mem_reverse.1 hc) (List.mem_reverse.1 hd)
        (under member) (under member'))

end Once

end World

/-! ## Worklists -/

/-- A walk that deals with one entity after the other. -/
structure Worklist (K B : Type) where
  world : World K B
  /-- Who is to be dealt with, the next one first. -/
  pending : List EntityId
  /-- Who has been dealt with, the first one first. -/
  dealt : List EntityId

namespace Worklist

/-- The beginning of a walk at an entity. -/
def start (w : World K B) (e : EntityId) : Worklist K B where
  world := w
  pending := [e]
  dealt := []

/-- One round: the next entity is dealt with, and its children are put on the list, the last one
next. -/
def round (deal : World K B → EntityId → World K B) (s : Worklist K B) :
    Except (Worklist K B) (Worklist K B) :=
  match s.pending with
  | [] => .error s
  | e :: rest =>
    let world := deal s.world e
    .ok { world, pending := (world.children e).reverse ++ rest, dealt := s.dealt ++ [e] }

/-- Forgets the matrices of an entity. -/
def forget (w : World K B) (e : EntityId) : World K B :=
  w.modifyTransform e Transform.invalidated

/-- Flags an actor for removal. -/
def flag (w : World K B) (e : EntityId) : World K B :=
  w.modifyActor e fun a => { a with state := .destroyed }

/-- A walk is under way: the world is what has become of it so far, and who has been dealt with
together with everything under whoever is to be dealt with makes the whole walk. -/
structure UnderWay (deal : World K B → EntityId → World K B) (w : World K B) (e : EntityId)
    (s : Worklist K B) : Prop where
  world : s.world = s.dealt.foldl deal w
  plan : s.dealt ++ s.pending.flatMap w.walk = w.walk e

section Walk

variable {deal : World K B → EntityId → World K B} {w : World K B} {e : EntityId}
  {s s' : Worklist K B} (acyclic : ∀ e, ¬ Relation.TransGen w.HasChild e e)
  (keeps : ∀ (w : World K B) e x, (deal w e).children x = w.children x)

include keeps in
/-- As long as dealing with an entity keeps the children, so does dealing with many. -/
theorem children_foldl (l : List EntityId) (w : World K B) (x : EntityId) :
    (l.foldl deal w).children x = w.children x := by
  induction l generalizing w with
  | nil => rfl
  | cons e l ih => rw [List.foldl_cons, ih, keeps]

include acyclic keeps

/-- A round keeps a walk under way, and there is less to go. -/
theorem UnderWay.round (h : s.UnderWay deal w e) (next : s.round deal = .ok s') :
    s'.UnderWay deal w e ∧
      (s'.pending.flatMap w.walk).length < (s.pending.flatMap w.walk).length := by
  obtain ⟨world, pending, dealt⟩ := s
  cases pending with
  | nil => cases next
  | cons x rest =>
    cases next
    have made : world = dealt.foldl deal w := h.world
    have links : (deal world x).children x = w.children x := by
      rw [keeps, made, children_foldl keeps]
    have opened : ((x :: rest).flatMap w.walk)
        = x :: ((w.children x).reverse ++ rest).flatMap w.walk := by
      rw [List.flatMap_cons, World.walk_eq acyclic, List.flatMap_append, List.cons_append]
    refine ⟨⟨?_, ?_⟩, ?_⟩
    · rw [List.foldl_append, ← made]
      rfl
    · rw [← h.plan, opened, links, List.append_assoc]
      rfl
    · dsimp only
      rw [opened, links, List.length_cons]
      exact Nat.lt_succ_self _

/-- A walk ends when it has been to everything under where it began. -/
theorem ends (e : EntityId) : Loop.Ends (Worklist.round deal) (start w e)
    ⟨(w.walk e).foldl deal w, [], w.walk e⟩ := by
  have begun : (start w e).UnderWay deal w e :=
    ⟨rfl, by rw [start, List.flatMap_singleton, List.nil_append]⟩
  obtain ⟨s, result, leads, ended, last⟩ := Loop.exists_end
    (fun s : Worklist K B => (s.pending.flatMap w.walk).length)
    (fun h next => h.round acyclic keeps next) begun
  obtain ⟨world, pending, dealt⟩ := s
  cases pending with
  | cons x rest => cases ended
  | nil =>
    have whole : dealt = w.walk e := by
      rw [← last.plan, List.flatMap_nil, List.append_nil]
    have made : world = dealt.foldl deal w := last.world
    refine ⟨_, leads, ?_⟩
    rw [made, whole]
    rfl

end Walk

/-! ## What the walks do -/

/-- It makes no difference in which order entities are changed in the same way. -/
theorem modifyEntity_comm (w : World K B) (a b : EntityId) (f : Entity K B → Entity K B) :
    (w.modifyEntity a f).modifyEntity b f = (w.modifyEntity b f).modifyEntity a f := by
  unfold World.modifyEntity
  congr 1
  refine Array.ext (by simp only [Array.size_modify]) fun i _ _ => ?_
  simp only [Array.getElem_modify]
  split <;> split <;> rfl

variable (w : World K B) (e : EntityId)

/-- Forgetting the matrices one by one is telling the subtree that it is stale. -/
theorem foldl_forget : (w.walk e).foldl forget w = w.invalidate e :=
  have : RightCommutative (forget (K := K) (B := B)) := ⟨fun w a b => modifyEntity_comm w a b _⟩
  (World.walkFrom_perm w _ e).foldl_eq w

/-- Flagging the actors one by one is marking the subtree as destroyed. -/
theorem foldl_flag : (w.walk e).foldl flag w = w.destroy e :=
  have : RightCommutative (flag (K := K) (B := B)) := ⟨fun w a b => modifyEntity_comm w a b _⟩
  (World.walkFrom_perm w _ e).foldl_eq w

/-- Forgetting matrices keeps all children. -/
theorem children_forget (x : EntityId) : (forget w e).children x = w.children x := by
  rw [forget, World.children_eq, World.children_eq w, World.transform?_modifyTransform]
  split
  · cases w.transform? x <;> rfl
  · rfl

/-- Flagging actors keeps all children. -/
theorem children_flag (x : EntityId) : (flag w e).children x = w.children x := by
  rw [flag, World.children_eq, (SameScene.modifyActor w e _).transform?, ← World.children_eq]

end Worklist

namespace World

/-- Both walks down from an entity end: the one that forgets matrices and the one that flags actors.
They come to the same entities in the same order, to each of them once, and these are the entity and
everything under it; among places, if the entity has one, these are the places below it. What they
come to is changed, and no other place or actor is. -/
structure WalkedDown (w : World K B) (e : EntityId) (visited : List EntityId) : Prop where
  once : visited.Nodup
  under : ∀ x, x ∈ visited ↔ w.Under x e
  below : (w.transform? e).isSome → ∀ x, (w.transform? x).isSome → (x ∈ visited ↔ w.Below x e)
  forgets : Loop.Ends (Worklist.round Worklist.forget) (.start w e) ⟨w.invalidate e, [], visited⟩
  flags : Loop.Ends (Worklist.round Worklist.flag) (.start w e) ⟨w.destroy e, [], visited⟩
  forgotten : ∀ x, (w.invalidate e).actor? x = w.actor? x ∧ (w.invalidate e).transform? x
    = if x ∈ visited then (w.transform? x).map Transform.invalidated else w.transform? x
  flagged : ∀ x, (w.destroy e).transform? x = w.transform? x ∧ (w.destroy e).actor? x
    = if x ∈ visited then (w.actor? x).map fun a => { a with state := .destroyed } else w.actor? x

/-- Walks down end, having come to everything under an entity once. -/
theorem walks_down {w : World K B} (traceable : w.Traceable) (fostered : w.Fostered)
    (apart : w.Apart) (e : EntityId) : w.WalkedDown e (w.walk e) where
  once := apart.nodup_walkFrom traceable.acyclic_children _ e
  under _ := mem_walk_iff
  below place _ place' := mem_walk_iff.trans
    ⟨traceable.below_of_under place', fostered.under_of_below place⟩
  forgets := Worklist.foldl_forget w e ▸
    Worklist.ends traceable.acyclic_children Worklist.children_forget e
  flags := Worklist.foldl_flag w e ▸
    Worklist.ends traceable.acyclic_children Worklist.children_flag e
  forgotten x := by
    rw [transform?_invalidate, (sameLinks_invalidate w e).onlyPlaces.actor?]
    exact ⟨rfl, if_congr (walkFrom_perm w _ e).mem_iff.symm rfl rfl⟩
  flagged x := by
    rw [actor?_destroy, (SameScene.destroy w e).transform?]
    exact ⟨rfl, if_congr (walkFrom_perm w _ e).mem_iff.symm rfl rfl⟩

end World

end SheepScene
