import Mathlib.Data.Finset.Card
import Mathlib.Logic.Function.Basic
import Mathlib.Logic.Relation

/-!
# Depth-first search with three colours

The search for a cycle that paints a node gray while it is on the path and black when everything it
leads to was searched.  `visit` recurses on a fuel; a search that meets a gray node found a cycle.

* `search_finished`: **a search that found no cycle leaves a finishing order** of its nodes: each
  stands before the nodes it leads to.
* `Ordered.exists_first`: in a finishing order, some node of any class leads to no other of the class.
* `search_cycle`, `search_finished_acyclic`: **a search finds a cycle exactly when its nodes lead to
  one**.
* `Ordered.exists_arrangement`: what is labelled with the nodes of a finishing order can be arranged so
  that each comes after all that it leads to.
* `search_ne_outOfFuel`: as much fuel as there are nodes is enough.
-/

open Relation

namespace Dfs

variable {α : Type*}

/-- White is a node that was not met. -/
inductive Colour where
  | white
  | gray
  | black
  deriving DecidableEq, Repr

/-- What a search came to. -/
inductive Search (α : Type*) where
  | outOfFuel
  | cycle
  | finished (colour : α → Colour)

/-- Goes on with the colours of a search that found no cycle. -/
def Search.andThen (found : Search α) (go : (α → Colour) → Search α) : Search α :=
  match found with
  | .outOfFuel => .outOfFuel
  | .cycle => .cycle
  | .finished colour => go colour

/-- The loop over the nodes that a gray node leads to. -/
def scan (visit : α → (α → Colour) → Search α) : List α → (α → Colour) → Search α
  | [], colour => .finished colour
  | b :: bs, colour => match colour b with
    | .gray => .cycle
    | .black => scan visit bs colour
    | .white => (visit b colour).andThen (scan visit bs)

/-- The visit of a white node. -/
def visit [DecidableEq α] (next : α → List α) : ℕ → α → (α → Colour) → Search α
  | 0, _, _ => .outOfFuel
  | fuel + 1, a, colour =>
    (scan (visit next fuel) (next a) (Function.update colour a .gray)).andThen fun colour' =>
      .finished (Function.update colour' a .black)

/-- The loop over all nodes. -/
def sweep (visit : α → (α → Colour) → Search α) : List α → (α → Colour) → Search α
  | [], colour => .finished colour
  | a :: as, colour =>
    if colour a = .white then (visit a colour).andThen (sweep visit as) else sweep visit as colour

/-- The search from every node of a list. -/
def search [DecidableEq α] (next : α → List α) (fuel : ℕ) (nodes : List α) : Search α :=
  sweep (visit next fuel) nodes fun _ => .white

theorem Search.andThen_finished {found : Search α} {go : (α → Colour) → Search α}
    {colour : α → Colour} (h : found.andThen go = .finished colour) :
    ∃ colour', found = .finished colour' ∧ go colour' = .finished colour := by
  cases found with
  | outOfFuel => cases h
  | cycle => cases h
  | finished colour' => exact ⟨colour', rfl, h⟩

/-! ### Colours -/

/-- What a search without a cycle does to the colours: the black nodes stay black, and the path is as
it was. -/
structure Advance (colour colour' : α → Colour) : Prop where
  black : ∀ b, colour b = .black → colour' b = .black
  gray : ∀ b, colour' b = .gray ↔ colour b = .gray

namespace Advance

variable {c c' c'' : α → Colour}

theorem refl (c : α → Colour) : Advance c c := ⟨fun _ h => h, fun _ => Iff.rfl⟩

theorem trans (h : Advance c c') (h' : Advance c' c'') : Advance c c'' :=
  ⟨fun b hb => h'.black b (h.black b hb), fun b => (h'.gray b).trans (h.gray b)⟩

/-- No node becomes white again. -/
theorem white (h : Advance c c') {b : α} (hb : c' b = .white) : c b = .white := by
  rcases hc : c b with _ | _ | _
  · rfl
  · rw [(h.gray b).mpr hc] at hb
    cases hb
  · rw [h.black b hc] at hb
    cases hb

/-- A white node was put on the path and taken off it again, black. -/
theorem visited [DecidableEq α] {a : α} (ha : c a = .white) (h : Advance (Function.update c a .gray) c') :
    Advance c (Function.update c' a .black) := by
  constructor
  · intro b hb
    by_cases hba : b = a
    · rw [hba, Function.update_self]
    · rw [Function.update_of_ne hba]
      apply h.black b
      rw [Function.update_of_ne hba, hb]
  · intro b
    by_cases hba : b = a
    · rw [hba, Function.update_self, ha]
      simp
    · rw [Function.update_of_ne hba, h.gray b, Function.update_of_ne hba]

end Advance

/-- Each node stands before the nodes it leads to. -/
def Ordered (next : α → List α) : List α → Prop
  | [] => True
  | a :: as => a ∉ as ∧ (∀ b ∈ next a, b ∈ as) ∧ Ordered next as

/-- **The first of a class**: some node of the class leads to no other of them. -/
theorem Ordered.exists_first {next : α → List α} {p : α → Prop} {order : List α}
    (h : Ordered next order) (hp : ∃ a ∈ order, p a) : ∃ a, p a ∧ ∀ b ∈ next a, ¬ p b := by
  induction order with
  | nil =>
    obtain ⟨a, ha, -⟩ := hp
    cases ha
  | cons a as ih =>
    by_cases hlater : ∃ b ∈ as, p b
    · exact ih h.2.2 hlater
    · obtain ⟨c, hc, hpc⟩ := hp
      rcases List.mem_cons.mp hc with rfl | hc
      · exact ⟨c, hpc, fun b hb hpb => hlater ⟨b, h.2.1 b hb, hpb⟩⟩
      · exact absurd ⟨c, hc, hpc⟩ hlater

/-- A node of the order leads to nodes of the order. -/
theorem Ordered.mem_next {next : α → List α} {order : List α} {a b : α} (h : Ordered next order)
    (ha : a ∈ order) (hb : b ∈ next a) : b ∈ order := by
  induction order with
  | nil => cases ha
  | cons c as ih =>
    rcases List.mem_cons.mp ha with rfl | ha
    · exact List.mem_cons_of_mem _ (h.2.1 b hb)
    · exact List.mem_cons_of_mem _ (ih h.2.2 ha)

/-- **An arrangement by the order**: each item comes after all items that its node leads to. -/
theorem Ordered.exists_arrangement [DecidableEq α] {β : Type*} {next : α → List α} {order : List α}
    (h : Ordered next order) (label : β → α) (items : List β) (hitems : ∀ item ∈ items, label item ∈ order) :
    ∃ arranged : List β, arranged.Perm items ∧ ∀ before item after, arranged = before ++ item :: after →
      ∀ other ∈ items, label other ∈ next (label item) → other ∈ before := by
  induction order generalizing items with
  | nil =>
    have hnone : items = [] := List.eq_nil_iff_forall_not_mem.mpr fun item hitem => by
      cases hitems item hitem
    refine ⟨[], by rw [hnone], fun before item after hsplit => ?_⟩
    simp at hsplit
  | cons a as ih =>
    -- the items of the first node come last
    have hrest : ∀ item ∈ items.filter fun item => !decide (label item = a), label item ∈ as := by
      intro item hitem
      obtain ⟨hmem, hlabel⟩ := List.mem_filter.mp hitem
      rcases List.mem_cons.mp (hitems item hmem) with heq | has
      · simp [heq] at hlabel
      · exact has
    obtain ⟨arranged, hperm, hbefore⟩ := ih h.2.2 _ hrest
    have hlater : ∀ other ∈ items, label other ∈ as → other ∈ arranged := by
      intro other hother has
      refine hperm.mem_iff.mpr (List.mem_filter.mpr ⟨hother, ?_⟩)
      have hne : label other ≠ a := fun heq => h.1 (heq ▸ has)
      simp [hne]
    refine ⟨arranged ++ items.filter fun item => decide (label item = a), ?_, ?_⟩
    · exact (hperm.append_right _).trans (List.perm_append_comm.trans (List.filter_append_perm _ items))
    · intro before item after hsplit other hother hleads
      rcases List.append_eq_append_iff.mp hsplit with ⟨mid, hbefore', hmid⟩ | ⟨mid, harranged, hmid⟩
      · have hitem : item ∈ items.filter fun item => decide (label item = a) := by
          rw [hmid]
          simp
        have hlabel : label item = a := of_decide_eq_true (List.mem_filter.mp hitem).2
        rw [hlabel] at hleads
        rw [hbefore']
        exact List.mem_append_left _ (hlater other hother (h.2.1 _ hleads))
      · rcases mid with _ | ⟨first, mid⟩
        · have hitem : item ∈ items.filter fun item => decide (label item = a) := by
            rw [List.nil_append] at hmid
            rw [← hmid]
            simp
          have hlabel : label item = a := of_decide_eq_true (List.mem_filter.mp hitem).2
          rw [hlabel] at hleads
          have hmem := hlater other hother (h.2.1 _ hleads)
          rw [harranged, List.append_nil] at hmem
          exact hmem
        · obtain ⟨rfl, -⟩ := List.cons.inj hmid
          have hmem : item ∈ arranged := by
            rw [harranged]
            simp
          have has := hrest item (hperm.mem_iff.mp hmem)
          have hother' : label other ∈ as := h.2.2.mem_next has hleads
          exact hbefore before item mid harranged other
            (hperm.mem_iff.mp (hlater other hother hother')) hleads

/-- The black nodes have a finishing order. -/
def Closed (next : α → List α) (colour : α → Colour) : Prop :=
  ∃ order, (∀ a, a ∈ order ↔ colour a = .black) ∧ Ordered next order

section Closed

variable {next : α → List α} {c : α → Colour} {a : α}

theorem closed_white : Closed next fun _ : α => Colour.white := ⟨[], by simp, trivial⟩

theorem Closed.gray [DecidableEq α] (h : Closed next c) (ha : c a = .white) :
    Closed next (Function.update c a .gray) := by
  obtain ⟨order, hblack, hordered⟩ := h
  refine ⟨order, fun b => ?_, hordered⟩
  by_cases hba : b = a
  · rw [hba, Function.update_self, hblack a, ha]
    simp
  · rw [Function.update_of_ne hba]
    exact hblack b

/-- A node of the path becomes black when all that it leads to is black. -/
theorem Closed.black [DecidableEq α] (h : Closed next c) (ha : c a = .gray) (hnext : ∀ b ∈ next a, c b = .black) :
    Closed next (Function.update c a .black) := by
  obtain ⟨order, hblack, hordered⟩ := h
  refine ⟨a :: order, fun b => ?_, ?_, ?_, hordered⟩
  · rw [List.mem_cons, hblack b]
    by_cases hba : b = a
    · rw [hba, Function.update_self]
      simp
    · rw [Function.update_of_ne hba]
      simp [hba]
  · rw [hblack a, ha]
    simp
  · exact fun b hb => (hblack b).mpr (hnext b hb)

end Closed

/-! ### Searches that found no cycle -/

/-- What a visit leaves. -/
structure Visits (next : α → List α) (visit : α → (α → Colour) → Search α) : Prop where
  advance : ∀ {a : α} {c c' : α → Colour}, c a = .white → visit a c = .finished c' → Advance c c'
  black : ∀ {a : α} {c c' : α → Colour}, visit a c = .finished c' → c' a = .black
  closed : ∀ {a : α} {c c' : α → Colour}, c a = .white → visit a c = .finished c' →
    Closed next c → Closed next c'

section Finished

variable {next : α → List α} {go : α → (α → Colour) → Search α} {c c' : α → Colour} {as : List α}

theorem scan_finished (hgo : Visits next go) (h : scan go as c = .finished c') :
    Advance c c' ∧ (∀ a ∈ as, c' a = .black) ∧ (Closed next c → Closed next c') := by
  induction as generalizing c with
  | nil =>
    obtain rfl := Search.finished.inj h
    exact ⟨Advance.refl c, by simp, id⟩
  | cons a as ih =>
    rw [scan] at h
    rcases ha : c a with _ | _ | _
    · rw [ha] at h
      obtain ⟨c₁, hvisit, hrest⟩ := Search.andThen_finished h
      have hone := hgo.advance ha hvisit
      obtain ⟨hadvance, hblack, hclosed⟩ := ih hrest
      refine ⟨hone.trans hadvance, ?_, fun hc => hclosed (hgo.closed ha hvisit hc)⟩
      intro b hb
      rcases List.mem_cons.mp hb with rfl | hb
      · exact hadvance.black b (hgo.black hvisit)
      · exact hblack b hb
    · rw [ha] at h
      cases h
    · rw [ha] at h
      obtain ⟨hadvance, hblack, hclosed⟩ := ih h
      refine ⟨hadvance, ?_, hclosed⟩
      intro b hb
      rcases List.mem_cons.mp hb with rfl | hb
      · exact hadvance.black b ha
      · exact hblack b hb

theorem visits_visit [DecidableEq α] (next : α → List α) (fuel : ℕ) : Visits next (visit next fuel) := by
  induction fuel with
  | zero => constructor <;> intros <;> contradiction
  | succ fuel ih =>
    constructor
    · intro a c c' ha h
      obtain ⟨c₁, hscan, hpaint⟩ := Search.andThen_finished h
      obtain rfl := Search.finished.inj hpaint
      exact Advance.visited ha (scan_finished ih hscan).1
    · intro a c c' h
      obtain ⟨c₁, -, hpaint⟩ := Search.andThen_finished h
      obtain rfl := Search.finished.inj hpaint
      exact Function.update_self a _ c₁
    · intro a c c' ha h hclosed
      obtain ⟨c₁, hscan, hpaint⟩ := Search.andThen_finished h
      obtain rfl := Search.finished.inj hpaint
      obtain ⟨hadvance, hblack, hkept⟩ := scan_finished ih hscan
      -- the node is on the path until all it leads to is black
      have hgray : c₁ a = .gray := (hadvance.gray a).mpr (Function.update_self a _ c)
      exact (hkept (hclosed.gray ha)).black hgray hblack

theorem sweep_finished (hgo : Visits next go) (h : sweep go as c = .finished c')
    (hpath : ∀ a, c a ≠ .gray) (hclosed : Closed next c) :
    Advance c c' ∧ (∀ a ∈ as, c' a = .black) ∧ Closed next c' := by
  induction as generalizing c with
  | nil =>
    obtain rfl := Search.finished.inj h
    exact ⟨Advance.refl c, by simp, hclosed⟩
  | cons a as ih =>
    rw [sweep] at h
    by_cases ha : c a = .white
    · rw [if_pos ha] at h
      obtain ⟨c₁, hvisit, hrest⟩ := Search.andThen_finished h
      have hone := hgo.advance ha hvisit
      obtain ⟨hadvance, hblack, hlast⟩ := ih hrest (fun b hb => hpath b ((hone.gray b).mp hb))
        (hgo.closed ha hvisit hclosed)
      refine ⟨hone.trans hadvance, ?_, hlast⟩
      intro b hb
      rcases List.mem_cons.mp hb with rfl | hb
      · exact hadvance.black b (hgo.black hvisit)
      · exact hblack b hb
    · rw [if_neg ha] at h
      obtain ⟨hadvance, hblack, hlast⟩ := ih h hpath hclosed
      refine ⟨hadvance, ?_, hlast⟩
      intro b hb
      rcases List.mem_cons.mp hb with rfl | hb
      · have hdone : c b = .black := by
          rcases hb : c b with _ | _ | _
          · exact absurd hb ha
          · exact absurd hb (hpath b)
          · rfl
        exact hadvance.black b hdone
      · exact hblack b hb

/-- **A search that found no cycle** has a finishing order of its nodes. -/
theorem search_finished [DecidableEq α] {fuel : ℕ} {nodes : List α} (h : search next fuel nodes = .finished c') :
    ∃ order, Ordered next order ∧ ∀ a ∈ nodes, a ∈ order := by
  obtain ⟨-, hblack, order, hmem, hordered⟩ := sweep_finished (visits_visit next fuel) h
    (fun _ => by simp) closed_white
  exact ⟨order, hordered, fun a ha => (hmem a).mpr (hblack a ha)⟩

end Finished

/-! ### Searches that found a cycle -/

/-- The node leads to a cycle. -/
def LeadsToCycle (next : α → List α) (a : α) : Prop :=
  ∃ b, ReflTransGen (fun a b => b ∈ next a) a b ∧ TransGen (fun a b => b ∈ next a) b b

theorem LeadsToCycle.head {next : α → List α} {a b : α} (hb : b ∈ next a) (h : LeadsToCycle next b) :
    LeadsToCycle next a := by
  obtain ⟨c, hreach, hcycle⟩ := h
  exact ⟨c, hreach.head hb, hcycle⟩

/-- **What a finishing order holds leads to no cycle.** -/
theorem Ordered.not_leadsToCycle {next : α → List α} {order : List α} {a : α} (h : Ordered next order)
    (ha : a ∈ order) : ¬ LeadsToCycle next a := by
  rintro ⟨b, hreach, hcycle⟩
  have hmem : ∀ c, ReflTransGen (fun a b => b ∈ next a) a c → c ∈ order := by
    intro c hc
    induction hc with
    | refl => exact ha
    | tail _ hedge ih => exact h.mem_next ih hedge
  -- some node of the cycle leads to no other of it
  obtain ⟨c, ⟨hto, hback⟩, hfirst⟩ := h.exists_first
    (p := fun c => TransGen (fun a b => b ∈ next a) b c ∧ TransGen (fun a b => b ∈ next a) c b)
    ⟨b, hmem b hreach, hcycle, hcycle⟩
  obtain ⟨d, hedge, hrest⟩ := TransGen.head'_iff.mp hback
  apply hfirst d hedge
  have htail := hto.tail hedge
  exact ⟨htail, hcycle.trans_right hrest⟩

section Cycles

variable {next : α → List α} {go : α → (α → Colour) → Search α} {c : α → Colour} {as : List α}

theorem Search.andThen_cycle {found : Search α} {go : (α → Colour) → Search α}
    (h : found.andThen go = .cycle) :
    found = .cycle ∨ ∃ colour, found = .finished colour ∧ go colour = .cycle := by
  cases found with
  | outOfFuel => cases h
  | cycle => exact Or.inl rfl
  | finished colour => exact Or.inr ⟨colour, rfl, h⟩

/-- The visits that find a cycle are right: when the path leads to the visited node, the node leads to
a cycle. -/
def FindsCycles (next : α → List α) (go : α → (α → Colour) → Search α) : Prop :=
  ∀ a c, c a = .white → (∀ g, c g = .gray → TransGen (fun a b => b ∈ next a) g a) →
    go a c = .cycle → LeadsToCycle next a

theorem scan_cycle (hgo : Visits next go) (hfinds : FindsCycles next go)
    (hpath : ∀ g, c g = .gray → ∀ a ∈ as, TransGen (fun a b => b ∈ next a) g a)
    (h : scan go as c = .cycle) : ∃ a ∈ as, LeadsToCycle next a := by
  induction as generalizing c with
  | nil => cases h
  | cons a as ih =>
    rw [scan] at h
    have hlater : ∀ g, c g = .gray → ∀ b ∈ as, TransGen (fun a b => b ∈ next a) g b :=
      fun g hg b hb => hpath g hg b (List.mem_cons_of_mem _ hb)
    rcases ha : c a with _ | _ | _
    · rw [ha] at h
      rcases Search.andThen_cycle h with hvisit | ⟨c₁, hvisit, hrest⟩
      · exact ⟨a, List.mem_cons_self, hfinds a c ha
          (fun g hg => hpath g hg a List.mem_cons_self) hvisit⟩
      · have hone := hgo.advance ha hvisit
        obtain ⟨b, hb, hcycle⟩ := ih (fun g hg => hlater g ((hone.gray g).mp hg)) hrest
        exact ⟨b, List.mem_cons_of_mem _ hb, hcycle⟩
    · -- the path leads to a node of the path
      exact ⟨a, List.mem_cons_self, a, .refl, hpath a ha a List.mem_cons_self⟩
    · rw [ha] at h
      obtain ⟨b, hb, hcycle⟩ := ih hlater h
      exact ⟨b, List.mem_cons_of_mem _ hb, hcycle⟩

theorem findsCycles_visit [DecidableEq α] (next : α → List α) (fuel : ℕ) :
    FindsCycles next (visit next fuel) := by
  induction fuel with
  | zero =>
    intro a c _ _ h
    cases h
  | succ fuel ih =>
    intro a c ha hpath h
    rcases Search.andThen_cycle h with hscan | ⟨c₁, -, hpaint⟩
    · have hpath' : ∀ g, Function.update c a .gray g = .gray →
          ∀ b ∈ next a, TransGen (fun a b => b ∈ next a) g b := by
        intro g hg b hb
        by_cases hga : g = a
        · rw [hga]
          exact TransGen.single hb
        · rw [Function.update_of_ne hga] at hg
          exact (hpath g hg).tail hb
      obtain ⟨b, hb, hcycle⟩ := scan_cycle (visits_visit next fuel) ih hpath' hscan
      exact hcycle.head hb
    · cases hpaint

theorem sweep_cycle (hgo : Visits next go) (hfinds : FindsCycles next go) (hpath : ∀ a, c a ≠ .gray)
    (h : sweep go as c = .cycle) : ∃ a ∈ as, LeadsToCycle next a := by
  induction as generalizing c with
  | nil => cases h
  | cons a as ih =>
    rw [sweep] at h
    have hnext : (∃ b ∈ as, LeadsToCycle next b) → ∃ b ∈ a :: as, LeadsToCycle next b := by
      rintro ⟨b, hb, hcycle⟩
      exact ⟨b, List.mem_cons_of_mem _ hb, hcycle⟩
    by_cases ha : c a = .white
    · rw [if_pos ha] at h
      rcases Search.andThen_cycle h with hvisit | ⟨c₁, hvisit, hrest⟩
      · exact ⟨a, List.mem_cons_self, hfinds a c ha (fun g hg => absurd hg (hpath g)) hvisit⟩
      · have hone := hgo.advance ha hvisit
        exact hnext (ih (fun b hb => hpath b ((hone.gray b).mp hb)) hrest)
    · rw [if_neg ha] at h
      exact hnext (ih hpath h)

/-- **A search that found a cycle** started at a node that leads to one. -/
theorem search_cycle [DecidableEq α] {fuel : ℕ} {nodes : List α} (h : search next fuel nodes = .cycle) :
    ∃ a ∈ nodes, LeadsToCycle next a :=
  sweep_cycle (visits_visit next fuel) (findsCycles_visit next fuel) (fun _ => by simp) h

/-- **A search that found no cycle** started at nodes that lead to none. -/
theorem search_finished_acyclic [DecidableEq α] {fuel : ℕ} {nodes : List α} {c' : α → Colour}
    (h : search next fuel nodes = .finished c') : ∀ a ∈ nodes, ¬ LeadsToCycle next a := by
  obtain ⟨order, hordered, hnodes⟩ := search_finished h
  exact fun a ha => hordered.not_leadsToCycle (hnodes a ha)

end Cycles

/-! ### Fuel -/

section Fuel

variable {next : α → List α} {U : Finset α} {c c' : α → Colour} {as : List α}

/-- The white nodes among `U`. -/
def whites (U : Finset α) (c : α → Colour) : ℕ := (U.filter fun a => c a = .white).card

theorem whites_le (h : Advance c c') : whites U c' ≤ whites U c :=
  Finset.card_le_card (Finset.monotone_filter_right U fun _ _ => h.white)

theorem whites_gray [DecidableEq α] {a : α} (ha : c a = .white) (hU : a ∈ U) :
    whites U (Function.update c a .gray) < whites U c := by
  refine Finset.card_lt_card (Finset.ssubset_iff_of_subset ?_ |>.mpr ⟨a, ?_, ?_⟩)
  · intro b hb
    rw [Finset.mem_filter] at hb ⊢
    by_cases hba : b = a
    · rw [hba]
      exact ⟨hU, ha⟩
    · rw [Function.update_of_ne hba] at hb
      exact hb
  · exact Finset.mem_filter.mpr ⟨hU, ha⟩
  · simp

/-- A visit ends when the fuel covers the white nodes. -/
def Ends (U : Finset α) (go : α → (α → Colour) → Search α) (fuel : ℕ) : Prop :=
  ∀ a ∈ U, ∀ c, c a = .white → whites U c ≤ fuel → go a c ≠ .outOfFuel

theorem scan_ne_outOfFuel {fuel : ℕ} {go : α → (α → Colour) → Search α} (hgo : Visits next go)
    (hends : Ends U go fuel) (has : ∀ a ∈ as, a ∈ U) (hfuel : whites U c ≤ fuel) :
    scan go as c ≠ .outOfFuel := by
  induction as generalizing c with
  | nil =>
    intro h
    cases h
  | cons a as ih =>
    rw [scan]
    rcases ha : c a with _ | _ | _
    · have hvisit := hends a (has a List.mem_cons_self) c ha hfuel
      rcases hfound : go a c with _ | _ | c₁
      · exact absurd hfound hvisit
      · simp [Search.andThen]
      · have hle := whites_le (U := U) (hgo.advance ha hfound)
        exact ih (fun b hb => has b (List.mem_cons_of_mem _ hb)) (le_trans hle hfuel)
    · simp
    · exact ih (fun b hb => has b (List.mem_cons_of_mem _ hb)) hfuel

theorem ends_visit [DecidableEq α] (hnext : ∀ a ∈ U, ∀ b ∈ next a, b ∈ U) (fuel : ℕ) :
    Ends U (visit next fuel) fuel := by
  induction fuel with
  | zero =>
    intro a ha c hc hfuel
    have hpos := whites_gray hc ha
    omega
  | succ fuel ih =>
    intro a ha c hc hfuel
    have hless := whites_gray hc ha
    have hscan := scan_ne_outOfFuel (visits_visit next fuel) ih (hnext a ha)
      (c := Function.update c a .gray) (by omega)
    rw [visit]
    rcases hfound : scan (visit next fuel) (next a) (Function.update c a .gray) with _ | _ | c₁
    · exact absurd hfound hscan
    · simp [Search.andThen]
    · simp [Search.andThen]

theorem sweep_ne_outOfFuel {fuel : ℕ} {go : α → (α → Colour) → Search α} (hgo : Visits next go)
    (hends : Ends U go fuel) (has : ∀ a ∈ as, a ∈ U) (hfuel : whites U c ≤ fuel) :
    sweep go as c ≠ .outOfFuel := by
  induction as generalizing c with
  | nil =>
    intro h
    cases h
  | cons a as ih =>
    have hlater : ∀ b ∈ as, b ∈ U := fun b hb => has b (List.mem_cons_of_mem _ hb)
    rw [sweep]
    by_cases ha : c a = .white
    · rw [if_pos ha]
      have hvisit := hends a (has a List.mem_cons_self) c ha hfuel
      rcases hfound : go a c with _ | _ | c₁
      · exact absurd hfound hvisit
      · simp [Search.andThen]
      · have hle := whites_le (U := U) (hgo.advance ha hfound)
        exact ih hlater (le_trans hle hfuel)
    · rw [if_neg ha]
      exact ih hlater hfuel

/-- **As much fuel as there are nodes is enough.** -/
theorem search_ne_outOfFuel [DecidableEq α] {fuel : ℕ} {nodes : List α} (hnodes : ∀ a ∈ nodes, a ∈ U)
    (hnext : ∀ a ∈ U, ∀ b ∈ next a, b ∈ U) (hfuel : U.card ≤ fuel) :
    search next fuel nodes ≠ .outOfFuel := by
  have hwhites : whites U (fun _ : α => Colour.white) ≤ fuel :=
    le_trans (Finset.card_filter_le _ _) hfuel
  exact sweep_ne_outOfFuel (visits_visit next fuel) (ends_visit hnext fuel) hnodes hwhites

end Fuel

end Dfs
