/-
What counting in rounds keeps true, and the orders that come out of it. `served` are the names that have left the queue
so far.
- `Schedule.Inv`: every name counts its dependencies that are not served, and exactly the names that count none have
  stood in the queue, each once.
- `Schedule.serve_inv`, `Schedule.serveAll_inv`: to serve the first of the queue keeps it, and so does a whole round.
- `Schedule.RoundInv`, `Schedule.round_inv`: after `k` rounds the names of depth less than `k` are served, each with its
  depth and one as its order.
- `Schedule.run_orders`: without a loop, the rounds end with every name served.
-/
import MakeAtlas.Graph.Level
import MakeAtlas.Proofs.Graph.Wiring

namespace MakeAtlas.Graph

/-! ## Names not seen yet -/

theorem unseen_eq_zero {seen names : List String} : unseen seen names = 0 ↔ ∀ a ∈ names, a ∈ seen := by
  simp [unseen, List.countP_eq_zero]

/-- a name seen now counts as often as it occurs -/
theorem unseen_concat {seen : List String} {name : String} (h : name ∉ seen) (names : List String) :
    unseen (seen ++ [name]) names + names.count name = unseen seen names := by
  induction names with
  | nil => rfl
  | cons a names ih =>
    simp only [unseen, List.countP_cons, List.count_cons] at ih ⊢
    by_cases ha : a = name
    · simp [ha, h] at ih ⊢
      omega
    · simp [ha] at ih ⊢
      omega

namespace Schedule

/-! ## One release -/

@[simp] theorem release_orders (s : Schedule) (name : String) : (s.release name).orders = s.orders := by
  unfold release
  split <;> rfl

/-- the name that is released counts one less; the others count as before -/
theorem release_counts (s : Schedule) (name n : String) :
    (s.release name).counts.value? n = (s.counts.value? n).map fun c => if n = name then c - 1 else c := by
  unfold release
  split
  next hnone =>
    by_cases hn : n = name
    · simp [hn, hnone]
    · simp [hn]
  next count hcount =>
    rw [Entries.value?_put]
    by_cases hn : n = name
    · simp [hn, hcount]
    · simp [hn]

/-- the name joins the queue when it counts one -/
theorem release_queue (s : Schedule) (name : String) :
    (s.release name).queue = s.queue ++ [name].filter fun a => s.counts.value? a == some 1 := by
  unfold release
  split
  next hnone => simp [hnone]
  next count hcount =>
    by_cases h1 : count = 1
    · simp [h1, hcount]
    · have h0 : ¬ count - 1 = 0 := by omega
      simp [h1, h0, hcount]

/-! ## Releases of several names -/

@[simp] theorem foldl_release_orders (names : List String) (s : Schedule) :
    (names.foldl release s).orders = s.orders := by
  induction names generalizing s with
  | nil => rfl
  | cons name names ih => rw [List.foldl_cons, ih, release_orders]

/-- each of these names counts one less -/
theorem foldl_release_counts {names : List String} (hnd : names.Nodup) (s : Schedule) (n : String) :
    (names.foldl release s).counts.value? n = (s.counts.value? n).map fun c => if n ∈ names then c - 1 else c := by
  induction names generalizing s with
  | nil => simp
  | cons name names ih =>
    rw [List.nodup_cons] at hnd
    rw [List.foldl_cons, ih hnd.2, release_counts, Option.map_map]
    congr 1
    funext c
    by_cases hn : n = name
    · simp [hn, hnd.1]
    · simp [hn]

/-- those of these names that count one join the queue, in turn -/
theorem foldl_release_queue {names : List String} (hnd : names.Nodup) (s : Schedule) :
    (names.foldl release s).queue = s.queue ++ names.filter fun a => s.counts.value? a == some 1 := by
  induction names generalizing s with
  | nil => simp
  | cons name names ih =>
    rw [List.nodup_cons] at hnd
    -- what the other names count is as before
    have hsame : ∀ a ∈ names, ((s.release name).counts.value? a == some 1) = (s.counts.value? a == some 1) := by
      intro a ha
      have hne : a ≠ name := fun h => hnd.1 (h ▸ ha)
      simp [release_counts, hne]
    rw [List.foldl_cons, ih hnd.2, release_queue, List.filter_congr hsame, List.append_assoc, ← List.filter_append]
    rfl

/-! ## What serving keeps -/

structure Inv (g : Graph) (served : List String) (s : Schedule) : Prop where
  counts : ∀ n ∈ g.names, s.counts.value? n = some (unseen served (g.dependencies n) : ℤ)
  ready : ∀ n, n ∈ served ++ s.queue ↔ n ∈ g.names ∧ ∀ d ∈ g.dependencies n, d ∈ served
  nodup : (served ++ s.queue).Nodup

theorem start_inv {g : Graph} (hg : Wired g) : Inv g [] (start g) where
  counts n hn := by
    rw [start, Entries.value?_map, if_pos hn]
    simp [unseen]
  ready n := by simp [start, List.eq_nil_iff_forall_not_mem]
  nodup := hg.nodup.filter _

theorem Inv.not_served {g : Graph} {served queue : List String} {s : Schedule} {name : String} (h : Inv g served s)
    (hq : s.queue = name :: queue) : name ∉ served := by
  have hnd := h.nodup
  rw [hq, List.nodup_append] at hnd
  exact fun hs => hnd.2.2 name hs name List.mem_cons_self rfl

/-- with one more name served, those that wait for it have one dependency less that is not -/
theorem unseen_served {g : Graph} (hg : Wired g) {served : List String} {name n : String} (hnew : name ∉ served)
    (hn : n ∈ g.names) :
    (unseen (served ++ [name]) (g.dependencies n) : ℤ) =
      if n ∈ g.dependents name then (unseen served (g.dependencies n) : ℤ) - 1
      else unseen served (g.dependencies n) := by
  have hcount := unseen_concat hnew (g.dependencies n)
  split_ifs with hdep
  · have hmem : name ∈ g.dependencies n := ((hg.mem_dependents n name).1 hdep).2
    rw [List.count_eq_one_of_mem (hg.nodup_dependencies n) hmem] at hcount
    omega
  · have hmem : name ∉ g.dependencies n := fun hm => hdep ((hg.mem_dependents n name).2 ⟨hn, hm⟩)
    rw [List.count_eq_zero.2 hmem] at hcount
    omega

/-- those who join the queue wait for `name`, and for nothing that is not served now -/
theorem Inv.joins_iff {g : Graph} (hg : Wired g) {served queue : List String} {s : Schedule} {name : String}
    (h : Inv g served s) (hq : s.queue = name :: queue) (n : String) :
    (n ∈ (g.dependents name).filter fun a => s.counts.value? a == some 1) ↔
      g.Waits n name ∧ ∀ d ∈ g.dependencies n, d ∈ served ++ [name] := by
  rw [List.mem_filter, hg.mem_dependents]
  refine and_congr_right fun hw => ?_
  have hdep : n ∈ g.dependents name := (hg.mem_dependents n name).2 hw
  have hless := unseen_served hg (h.not_served hq) hw.1
  rw [if_pos hdep] at hless
  rw [h.counts n hw.1, beq_iff_eq, Option.some.injEq, ← unseen_eq_zero]
  omega

/-- **Serving one name.** -/
theorem serve_inv {g : Graph} (hg : Wired g) {served queue : List String} {s : Schedule} {name : String}
    (h : Inv g served s) (hq : s.queue = name :: queue) (order : ℕ) :
    Inv g (served ++ [name]) (s.serve g order) ∧ (∃ more, (s.serve g order).queue = queue ++ more) ∧
      (s.serve g order).orders = s.orders.put name order := by
  have hserve : s.serve g order = (g.dependents name).foldl release
    { s with queue, orders := s.orders.put name order } := by
    rw [serve, hq]
  have hnd := hg.nodup_dependents name
  have hnew := h.not_served hq
  let more := (g.dependents name).filter fun a => s.counts.value? a == some 1
  have hqueue : (s.serve g order).queue = queue ++ more := by
    rw [hserve, foldl_release_queue hnd]
  have hmore : ∀ n, n ∈ more ↔ g.Waits n name ∧ ∀ d ∈ g.dependencies n, d ∈ served ++ [name] := h.joins_iff hg hq
  have hold : ∀ n, n ∈ served ++ name :: queue ↔ n ∈ g.names ∧ ∀ d ∈ g.dependencies n, d ∈ served := hq ▸ h.ready
  have hperm : served ++ [name] ++ (queue ++ more) = (served ++ name :: queue) ++ more := by simp
  refine ⟨⟨fun n hn => ?_, fun n => ?_, ?_⟩, ⟨more, hqueue⟩, ?_⟩
  · rw [hserve, foldl_release_counts hnd, h.counts n hn, unseen_served hg hnew hn]
    rfl
  · rw [hqueue, hperm, List.mem_append, hold, hmore]
    constructor
    · intro hin
      rcases hin with ⟨hn, hall⟩ | ⟨hw, hall⟩
      · exact ⟨hn, fun d hd => List.mem_append_left _ (hall d hd)⟩
      · exact ⟨hw.1, hall⟩
    · intro hin
      obtain ⟨hn, hall⟩ := hin
      by_cases hw : g.Waits n name
      · exact .inr ⟨hw, hall⟩
      · refine .inl ⟨hn, fun d hd => ?_⟩
        rcases List.mem_append.1 (hall d hd) with hd' | hd'
        · exact hd'
        · exact absurd ⟨hn, List.mem_singleton.1 hd' ▸ hd⟩ hw
  · rw [hqueue, hperm, List.nodup_append]
    refine ⟨hq ▸ h.nodup, hnd.filter _, fun n hn m hm heq => ?_⟩
    -- who joins waits for `name`, so was neither served nor in the queue
    have hw : g.Waits n name := ((hmore n).1 (heq ▸ hm)).1
    exact hnew (((hold n).1 hn).2 name hw.2)
  · rw [hserve, foldl_release_orders]

/-- **Serving the front of the queue.** All of it gets the same order. -/
theorem serveAll_inv {g : Graph} (hg : Wired g) {served : List String} (batch : List String) {rest : List String}
    {s : Schedule} (h : Inv g served s) (hq : s.queue = batch ++ rest) (order : ℕ) :
    Inv g (served ++ batch) (s.serveAll g order batch.length) ∧
      ∀ n, (s.serveAll g order batch.length).orders.value? n = if n ∈ batch then some order else s.orders.value? n := by
  induction batch generalizing served s rest with
  | nil => exact ⟨by simpa [serveAll] using h, by simp [serveAll]⟩
  | cons name batch ih =>
    rw [List.cons_append] at hq
    obtain ⟨h₁, ⟨more, hq₁⟩, ho₁⟩ := serve_inv hg h hq order
    rw [List.append_assoc] at hq₁
    obtain ⟨h', ho'⟩ := ih h₁ hq₁
    rw [List.append_assoc, List.singleton_append] at h'
    refine ⟨h', fun n => ?_⟩
    rw [List.length_cons, serveAll, ho', ho₁, Entries.value?_put]
    by_cases hn : n = name
    · simp [hn]
    · simp [hn]

/-! ## Rounds -/

structure RoundInv (g : Graph) (k : ℕ) (served : List String) (s : Schedule) : Prop extends Inv g served s where
  served_iff : ∀ n, n ∈ served ↔ n ∈ g.names ∧ ∃ d < k, HasDepth g.Waits n d
  orders : ∀ n ∈ served, ∀ d, HasDepth g.Waits n d → s.orders.value? n = some (d + 1)

/-- a name waits only for names of depth less than `k` when it has depth at most `k` -/
theorem all_less_iff {g : Graph} (hg : Wired g) (hdepth : ∀ a, ∃ d, HasDepth g.Waits a d) {n : String}
    (hn : n ∈ g.names) (k : ℕ) :
    (∀ b ∈ g.dependencies n, b ∈ g.names ∧ ∃ d < k, HasDepth g.Waits b d) ↔ ∃ d < k + 1, HasDepth g.Waits n d := by
  constructor
  · intro hall
    obtain ⟨d, hd⟩ := hdepth n
    refine ⟨d, ?_, hd⟩
    cases d with
    | zero => exact Nat.succ_pos k
    | succ e =>
      obtain ⟨b, hnb, hb⟩ := hd.exists_below
      obtain ⟨-, e', he', hb'⟩ := hall b hnb.2
      rw [hb.unique hb']
      omega
  · intro hsome b hb
    obtain ⟨d, hdk, hd⟩ := hsome
    obtain ⟨e, he⟩ := hdepth b
    have hlt : e < d := hd.lt ⟨hn, hb⟩ he
    exact ⟨hg.closed n hn b hb, e, by omega, he⟩

/-- **One round.** -/
theorem round_inv {g : Graph} (hg : Wired g) (hdepth : ∀ a, ∃ d, HasDepth g.Waits a d) {k : ℕ} {served : List String}
    {s : Schedule} (h : RoundInv g k served s) : RoundInv g (k + 1) (served ++ s.queue) (s.round g (k + 1)) := by
  obtain ⟨hinv, horders⟩ := serveAll_inv hg s.queue h.toInv (List.append_nil _).symm (k + 1)
  have hserved : ∀ n, n ∈ served ++ s.queue ↔ n ∈ g.names ∧ ∃ d < k + 1, HasDepth g.Waits n d := by
    intro n
    rw [h.ready]
    refine and_congr_right fun hn => ?_
    rw [← all_less_iff hg hdepth hn]
    exact forall₂_congr fun b _ => h.served_iff b
  refine ⟨hinv, hserved, fun n hn d hd => ?_⟩
  rw [round, horders]
  split_ifs with hqueue
  · -- it was not served before, so its depth is not less than `k`
    obtain ⟨hname, e, he, hne⟩ := (hserved n).1 hn
    obtain rfl : d = e := hd.unique hne
    have hnot : n ∉ served := fun hs => (List.nodup_append.1 h.nodup).2.2 n hs n hqueue rfl
    have hge : ¬ d < k := fun hlt => hnot ((h.served_iff n).2 ⟨hname, d, hlt, hd⟩)
    rw [Nat.le_antisymm (Nat.le_of_lt_succ he) (Nat.le_of_not_lt hge)]
  · exact h.orders n ((List.mem_append.1 hn).resolve_right hqueue) d hd

theorem start_roundInv {g : Graph} (hg : Wired g) : RoundInv g 0 [] (start g) where
  toInv := start_inv hg
  served_iff n := by simp
  orders n hn := absurd hn List.not_mem_nil

/-- an empty queue leaves nobody waiting -/
theorem RoundInv.served_of_queue_nil {g : Graph} (hg : Wired g) (hdepth : ∀ a, ∃ d, HasDepth g.Waits a d) {k : ℕ}
    {served : List String} {s : Schedule} (h : RoundInv g k served s) (hq : s.queue = []) {n : String}
    (hn : n ∈ g.names) {d : ℕ} (hd : HasDepth g.Waits n d) : n ∈ served := by
  induction d using Nat.strong_induction_on generalizing n with
  | _ d ih =>
    have hready := (h.ready n).2 ⟨hn, fun b hb => ?_⟩
    · rwa [hq, List.append_nil] at hready
    · obtain ⟨e, he⟩ := hdepth b
      exact ih e (hd.lt ⟨hn, hb⟩ he) (hg.closed n hn b hb) he

/-- **The rounds give every name its depth and one.** -/
theorem run_orders {g : Graph} (hg : Wired g) (hdepth : ∀ a, ∃ d, HasDepth g.Waits a d) {k : ℕ} {served : List String}
    {s : Schedule} (h : RoundInv g k served s) {n : String} (hn : n ∈ g.names) {d : ℕ} (hd : HasDepth g.Waits n d) :
    (run g k s).value? n = some (d + 1) := by
  induction k, s using run.induct g generalizing served with
  | case1 k s hq =>
    rw [run, dif_pos hq]
    exact h.orders n (h.served_of_queue_nil hg hdepth hq hn hd) d hd
  | case2 k s hq ih =>
    rw [run, dif_neg hq]
    exact ih (round_inv hg hdepth h)

end Schedule

end MakeAtlas.Graph
