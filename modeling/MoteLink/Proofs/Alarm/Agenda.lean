import Mathlib.Data.List.TakeWhile
import Mathlib.Data.List.Nodup
import Mathlib.Tactic.Tauto
import MoteLink.Alarm.Basic
import MoteLink.Proofs.Tick

/-!
# Agendas

An agenda lists alarms with their deadlines. It can be kept by deadlines, each new entry put where
its deadline belongs, or by the order of scheduling, each new entry put at the end. As long as all
deadlines lie within half a turn of the clock, the first is the second after a stable sort.
-/

namespace MoteLink

/-- Alarms and their deadlines. -/
abbrev Agenda := List (AlarmId × Tick)

namespace Agenda

/-- The agenda without an alarm. -/
def strike (id : AlarmId) (l : Agenda) : Agenda :=
  l.filter fun entry => entry.1 != id

/-- The entry is for a later tick. -/
def isLater (deadline : Tick) (entry : AlarmId × Tick) : Bool :=
  Tick.isAfter entry.2 deadline

/-- Put an entry behind every entry that is not for a later tick, as seen from the end. -/
def insert (id : AlarmId) (deadline : Tick) (l : Agenda) : Agenda :=
  (l.reverse.dropWhile (isLater deadline)).reverse ++
    (id, deadline) :: (l.reverse.takeWhile (isLater deadline)).reverse

/-- No entry is for a later tick than one behind it. -/
def Ordered (l : Agenda) : Prop :=
  l.Pairwise fun x y => Tick.isAfter x.2 y.2 = false

/-- All deadlines lie in the half turn that begins at `base`. -/
def Within (base : Tick) (l : Agenda) : Prop :=
  ∀ entry ∈ l, Tick.InHalfTurn base entry.2

/-- The entries for a tick, in their order. -/
def dueAt (tick : Tick) (l : Agenda) : Agenda :=
  l.filter fun entry => entry.2 == tick

/-- Two entries in the order of their deadlines, counted from `base` on. -/
def isSooner (base : Tick) (x y : AlarmId × Tick) : Bool :=
  x.2 - base ≤ y.2 - base

variable {l : Agenda} {id : AlarmId} {deadline base : Tick} {entry : AlarmId × Tick}

@[simp] theorem mem_strike : entry ∈ strike id l ↔ entry ∈ l ∧ entry.1 ≠ id := by
  simp [strike]

theorem map_fst_strike (nodup : (l.map Prod.fst).Nodup) :
    (strike id l).map Prod.fst = (l.map Prod.fst).erase id := by
  rw [nodup.erase_eq_filter, List.filter_map]
  rfl

/-- Where an entry is put, nothing else moves. -/
theorem exists_insert (id : AlarmId) (deadline : Tick) (l : Agenda) :
    ∃ before later, l = before ++ later ∧ insert id deadline l = before ++ (id, deadline) :: later ∧
      (∀ entry ∈ later, Tick.isAfter entry.2 deadline = true) ∧
      ∀ entry ∈ before.getLast?, Tick.isAfter entry.2 deadline = false := by
  refine ⟨(l.reverse.dropWhile (isLater deadline)).reverse,
    (l.reverse.takeWhile (isLater deadline)).reverse, ?_, rfl, ?_, ?_⟩
  · rw [← List.reverse_append, List.takeWhile_append_dropWhile, List.reverse_reverse]
  · intro entry member
    exact List.mem_takeWhile_imp (p := isLater deadline) (List.mem_reverse.mp member)
  · intro entry last
    have first := List.head?_dropWhile_not (isLater deadline) l.reverse
    rw [List.getLast?_reverse] at last
    rw [Option.mem_def.mp last] at first
    exact first

/-- A new entry comes to stand in front of another one only if it is for an earlier tick. -/
theorem exists_insert_of_split (id : AlarmId) (deadline : Tick) (before behind : Agenda)
    (entry : AlarmId × Tick) :
    ∃ before' behind',
      insert id deadline (before ++ entry :: behind) = before' ++ entry :: behind' ∧
      ∀ other ∈ before', other ∈ before ∨
        other = (id, deadline) ∧ Tick.isAfter entry.2 deadline = true := by
  obtain ⟨front, later, split, inserted, after, -⟩ :=
    exists_insert id deadline (before ++ entry :: behind)
  rw [inserted]
  rcases List.append_eq_append_iff.mp split with ⟨rest, rfl, tail⟩ | ⟨rest, rfl, rfl⟩
  · rcases List.cons_eq_append_iff.mp tail with ⟨rfl, rfl⟩ | ⟨rest, rfl, rfl⟩
    · -- The new entry stands right in front of the other one.
      refine ⟨before ++ [(id, deadline)], behind, by simp, fun other member => ?_⟩
      rcases List.mem_append.mp member with old | new
      · exact .inl old
      · exact .inr ⟨List.mem_singleton.mp new, after entry List.mem_cons_self⟩
    · exact ⟨before, rest ++ (id, deadline) :: later, by simp, fun other member => .inl member⟩
  · refine ⟨front ++ (id, deadline) :: rest, behind, by simp, fun other member => ?_⟩
    rcases List.mem_append.mp member with old | new
    · exact .inl (List.mem_append_left _ old)
    · rcases List.mem_cons.mp new with rfl | old
      · exact .inr ⟨rfl, after entry (List.mem_append_right _ List.mem_cons_self)⟩
      · exact .inl (List.mem_append_right _ old)

theorem mem_insert : entry ∈ insert id deadline l ↔ entry = (id, deadline) ∨ entry ∈ l := by
  obtain ⟨before, later, rfl, inserted, -, -⟩ := exists_insert id deadline l
  rw [inserted]
  simp only [List.mem_append, List.mem_cons]
  tauto

theorem nodup_insert (nodup : (l.map Prod.fst).Nodup) (absent : id ∉ l.map Prod.fst) :
    ((insert id deadline l).map Prod.fst).Nodup := by
  obtain ⟨before, later, rfl, inserted, -, -⟩ := exists_insert id deadline l
  rw [inserted]
  simp only [List.map_append, List.map_cons] at nodup absent ⊢
  exact List.nodup_middle.mpr (List.nodup_cons.mpr ⟨absent, nodup⟩)

/-! ## By deadlines -/

theorem Ordered.strike (ordered : Ordered l) (id : AlarmId) : Ordered (strike id l) :=
  List.Pairwise.filter _ ordered

/-- In half a turn an entry goes behind all that are not for a later tick, and before the others. -/
theorem Ordered.insert (ordered : Ordered l) (within : Within base (insert id deadline l)) :
    Ordered (insert id deadline l) := by
  obtain ⟨before, later, rfl, inserted, after, upTo⟩ := exists_insert id deadline l
  rw [inserted] at within ⊢
  have here : Tick.InHalfTurn base deadline :=
    within _ (List.mem_append_right _ List.mem_cons_self)
  obtain ⟨front, back, across⟩ := List.pairwise_append.mp ordered
  have behind : ∀ y ∈ later, Tick.isAfter deadline y.2 = false := by
    intro y member
    have there : Tick.InHalfTurn base y.2 :=
      within y (List.mem_append_right _ (List.mem_cons_of_mem _ member))
    have less := (Tick.isAfter_iff there here).mp (after y member)
    exact (Tick.isAfter_eq_false_iff here there).mpr (UInt32.le_of_lt less)
  have ahead : ∀ x ∈ before, Tick.isAfter x.2 deadline = false := by
    intro x member
    -- The entry just before the new one is not later than it, and none is later than that entry.
    rcases List.eq_nil_or_concat' before with rfl | ⟨first, last, rfl⟩
    · cases member
    have near : Tick.isAfter last.2 deadline = false := by
      apply upTo
      simp
    rcases List.mem_append.mp member with earlier | same
    · have there : Tick.InHalfTurn base x.2 := within x (List.mem_append_left _ member)
      have between : Tick.InHalfTurn base last.2 := by
        apply within
        simp
      have up := (List.pairwise_append.mp front).2.2 x earlier last (List.mem_singleton_self last)
      rw [Tick.isAfter_eq_false_iff there between] at up
      rw [Tick.isAfter_eq_false_iff between here] at near
      exact (Tick.isAfter_eq_false_iff there here).mpr (UInt32.le_trans up near)
    · rw [List.mem_singleton.mp same]
      exact near
  refine List.pairwise_append.mpr ⟨front, List.pairwise_cons.mpr ⟨behind, back⟩, ?_⟩
  intro x left y right
  rcases List.mem_cons.mp right with rfl | right
  · exact ahead x left
  · exact across x left y right

/-! ## By the order of scheduling -/

/-- Behind the entries for its own tick, whatever the others are. -/
theorem dueAt_insert (tick : Tick) :
    dueAt tick (insert id deadline l) = dueAt tick (l ++ [(id, deadline)]) := by
  obtain ⟨before, later, rfl, inserted, after, -⟩ := exists_insert id deadline l
  rw [inserted]
  simp only [dueAt, List.filter_append, List.filter_cons, List.filter_nil]
  by_cases own : deadline = tick
  · have none : later.filter (fun entry => entry.2 == tick) = [] := by
      apply List.filter_eq_nil_iff.mpr
      intro entry member same
      have passed := after entry member
      rw [beq_iff_eq.mp same, own, Tick.isAfter_self] at passed
      cases passed
    simp [own, none]
  · simp [own]

theorem dueAt_strike (tick : Tick) : dueAt tick (strike id l) = strike id (dueAt tick l) := by
  simp only [dueAt, strike, List.filter_filter, Bool.and_comm]

theorem dueAt_append (tick : Tick) (l m : Agenda) :
    dueAt tick (l ++ m) = dueAt tick l ++ dueAt tick m :=
  List.filter_append ..

theorem mem_iff_of_dueAt {l m : Agenda} (same : ∀ tick, dueAt tick l = dueAt tick m)
    (entry : AlarmId × Tick) : entry ∈ l ↔ entry ∈ m := by
  have both := congrArg (entry ∈ ·) (same entry.2)
  simpa [dueAt] using both

/-- An agenda in the order of its deadlines is told by its entries for each tick. -/
theorem eq_of_dueAt {l m : Agenda} (sorted : l.Pairwise fun x y => isSooner base x y)
    (sorted' : m.Pairwise fun x y => isSooner base x y)
    (same : ∀ tick, dueAt tick l = dueAt tick m) : l = m := by
  induction l generalizing m with
  | nil =>
    cases m with
    | nil => rfl
    | cons y m => simpa using mem_iff_of_dueAt same y
  | cons x l ih =>
    cases m with
    | nil => simpa using mem_iff_of_dueAt same x
    | cons y m =>
      obtain ⟨least, rest⟩ := List.pairwise_cons.mp sorted
      obtain ⟨least', rest'⟩ := List.pairwise_cons.mp sorted'
      -- Each head is among the entries of the other agenda, so neither is sooner than the other.
      have below : x.2 - base ≤ y.2 - base := by
        rcases List.mem_cons.mp ((mem_iff_of_dueAt same y).mpr List.mem_cons_self) with rfl | later
        · exact UInt32.le_refl _
        · exact decide_eq_true_iff.mp (least y later)
      have above : y.2 - base ≤ x.2 - base := by
        rcases List.mem_cons.mp ((mem_iff_of_dueAt same x).mp List.mem_cons_self) with rfl | later
        · exact UInt32.le_refl _
        · exact decide_eq_true_iff.mp (least' x later)
      have tick : y.2 = x.2 := (UInt32.sub_left_inj base).mp (UInt32.le_antisymm above below)
      have first := same x.2
      simp only [dueAt, List.filter_cons, beq_self_eq_true, tick, ↓reduceIte,
        List.cons.injEq] at first
      obtain ⟨rfl, -⟩ := first
      refine congrArg (x :: ·) (ih rest rest' fun t => ?_)
      have both := same t
      simp only [dueAt, List.filter_cons] at both ⊢
      by_cases own : (x.2 == t) = true
      · simpa [own] using both
      · simpa [own] using both

theorem isSooner_trans (base : Tick) (x y z : AlarmId × Tick) :
    isSooner base x y = true → isSooner base y z = true → isSooner base x z = true := by
  simp only [isSooner, decide_eq_true_eq]
  exact UInt32.le_trans

theorem isSooner_total (base : Tick) (x y : AlarmId × Tick) :
    (isSooner base x y || isSooner base y x) = true := by
  simpa [isSooner] using UInt32.le_total _ _

/-- A stable sort leaves the entries for one tick in their order. -/
theorem dueAt_mergeSort (tick : Tick) (l : Agenda) :
    dueAt tick (l.mergeSort (isSooner base)) = dueAt tick l := by
  have kept : (dueAt tick l).Sublist (l.mergeSort (isSooner base)) := by
    apply List.sublist_mergeSort (isSooner_trans base) (isSooner_total base)
    · apply List.pairwise_of_forall_mem_list
      intro x left y right
      have first := beq_iff_eq.mp (List.mem_filter.mp left).2
      have second := beq_iff_eq.mp (List.mem_filter.mp right).2
      simp [isSooner, first, second]
    · exact List.filter_sublist
  have again : dueAt tick (dueAt tick l) = dueAt tick l := by
    simp [dueAt]
  have short := List.Sublist.filter (fun entry => entry.2 == tick) kept
  refine (List.Sublist.eq_of_length (again ▸ short) ?_).symm
  exact ((List.mergeSort_perm l (isSooner base)).filter _).length_eq.symm

/-- An agenda in the order of its deadlines is the stable sort of any other one that has the same
    entries for each tick in the same order. -/
theorem eq_mergeSort {m : Agenda} (ordered : Ordered l) (within : Within base l)
    (same : ∀ tick, dueAt tick l = dueAt tick m) : l = m.mergeSort (isSooner base) := by
  apply eq_of_dueAt
  · refine List.Pairwise.imp_of_mem ?_ ordered
    intro x y left right upTo
    exact decide_eq_true ((Tick.isAfter_eq_false_iff (within x left) (within y right)).mp upTo)
  · exact List.pairwise_mergeSort (isSooner_trans base) (isSooner_total base) m
  · intro tick
    rw [dueAt_mergeSort, same]

end Agenda

end MoteLink
