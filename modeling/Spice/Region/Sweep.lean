import Spice.Region.Test

namespace Spice
namespace Region

/-!
# The sweep over the rows and the bands

What the loops of `test_band` and of `test_generic` have found, against the points they have
passed.  Each loop is given by the place it has come to: what it adds from there on is what is
shown by the points that are not before that place.
-/

namespace Flags

theorem set_iff (res : Flags) (flag asked : Flag) : res.set flag asked = true <-> asked = flag ∨ res asked = true := by
  simp [set]

theorem setIf_iff (res : Flags) (condition : Bool) (flag asked : Flag)
    : res.setIf condition flag asked = true <-> (condition = true ∧ asked = flag) ∨ res asked = true := by
  cases condition with
  | false => simp [setIf]
  | true => simp [setIf, set]

theorem setSome_iff (res : Flags) (alone : Option Flag) (asked : Flag)
    : res.setSome alone asked = true <-> res asked = true ∨ alone = some asked := by
  cases alone with
  | none => exact ⟨Or.inl, fun found => found.resolve_right (fun other => nomatch other)⟩
  | some flag =>
      show res.set flag asked = true <-> _
      rw [set_iff, Option.some.injEq]
      exact ⟨fun found => found.symm.imp_right Eq.symm, fun found => found.symm.imp_left Eq.symm⟩

theorem and_iff (res query : Flags) (asked : Flag) :
    res.and query asked = true <-> res asked = true ∧ query asked = true := by
  simp [and]

/-- What covers the query has each flag that is asked for. -/
theorem of_covers {res query : Flags} {asked : Flag} (covered : res.covers query = true)
    (requested : query asked = true) : res asked = true := by
  simp only [covers, Bool.and_eq_true, Bool.or_eq_true, Bool.not_eq_true'] at covered
  cases asked with
  | leftExclusive =>
      rcases covered.1.1 with absent | present
      · rw [requested] at absent
        cases absent
      · exact present
  | rightExclusive =>
      rcases covered.1.2 with absent | present
      · rw [requested] at absent
        cases absent
      · exact present
  | shared =>
      rcases covered.2 with absent | present
      · rw [requested] at absent
        cases absent
      · exact present

end Flags

/-! ## Points that show a flag -/

variable {flag : Flag}

theorem Shows.congr {Point Point' : Type} {first second : Point -> Prop} {first' second' : Point' -> Prop}
    {point : Point} {point' : Point'} (left : first point <-> first' point') (right : second point <-> second' point')
    : Shows first second flag point <-> Shows first' second' flag point' := by
  cases flag with
  | leftExclusive => exact and_congr left (not_congr right)
  | rightExclusive => exact and_congr right (not_congr left)
  | shared => exact and_congr left right

theorem not_shows {Point : Type} {first second : Point -> Prop} {point : Point}
    (left : ¬ first point) (right : ¬ second point) : ¬ Shows first second flag point := by
  cases flag with
  | leftExclusive => exact fun shown => left shown.1
  | rightExclusive => exact fun shown => right shown.1
  | shared => exact fun shown => left shown.1

theorem shows_left {Point : Type} {first second : Point -> Prop} {point : Point}
    (left : first point) (right : ¬ second point) : Shows first second flag point <-> flag = .leftExclusive := by
  cases flag with
  | leftExclusive => exact ⟨fun _ => rfl, fun _ => ⟨left, right⟩⟩
  | rightExclusive => exact ⟨fun shown => absurd shown.1 right, fun other => nomatch other⟩
  | shared => exact ⟨fun shown => absurd shown.2 right, fun other => nomatch other⟩

theorem shows_right {Point : Type} {first second : Point -> Prop} {point : Point}
    (left : ¬ first point) (right : second point) : Shows first second flag point <-> flag = .rightExclusive := by
  cases flag with
  | leftExclusive => exact ⟨fun shown => absurd shown.1 left, fun other => nomatch other⟩
  | rightExclusive => exact ⟨fun _ => rfl, fun _ => ⟨right, left⟩⟩
  | shared => exact ⟨fun shown => absurd shown.1 left, fun other => nomatch other⟩

/-! ## The boxes of a row -/

/-- A box of the row spans the column. -/
def RowHas (boxes : List Box) (column : Int) : Prop :=
  Exists fun box => box ∈ boxes ∧ box.x1 ≤ column ∧ column < box.x2

theorem rowHas_nil (column : Int) : ¬ RowHas [] column := by
  rintro ⟨box, member, _⟩
  cases member

theorem RowOk.tail {box : Box} {boxes : List Box} (row : RowOk (box :: boxes)) : RowOk boxes where
  wide := fun other member => row.wide other (List.mem_cons_of_mem box member)
  apart := (List.pairwise_cons.mp row.apart).2

theorem rowHas_first {box : Box} {boxes : List Box} {column : Int} (row : RowOk (box :: boxes))
    (before : column ≤ box.x2)
    : RowHas (box :: boxes) column <-> box.x1 ≤ column ∧ column < box.x2 := by
  constructor
  · rintro ⟨other, member, starts, ends⟩
    rcases List.mem_cons.mp member with same | later
    · rw [same] at starts ends
      exact ⟨starts, ends⟩
    · have after := (List.pairwise_cons.mp row.apart).1 other later
      omega
  · intro spanned
    exact ⟨box, List.mem_cons_self, spanned⟩

theorem rowHas_rest {box : Box} {boxes : List Box} {column : Int} (after : box.x2 ≤ column)
    : RowHas (box :: boxes) column <-> RowHas boxes column := by
  constructor
  · rintro ⟨other, member, starts, ends⟩
    rcases List.mem_cons.mp member with same | later
    · rw [same] at ends
      omega
    · exact ⟨other, later, starts, ends⟩
  · rintro ⟨other, member, spanned⟩
    exact ⟨other, List.mem_cons_of_mem box member, spanned⟩

/-- What is left of two rows from a column on.  Only one of the two can have a box that started
before it. -/
structure RowsAt (column : Int) (r1 r2 : List Box) : Prop where
  first : RowOk r1
  second : RowOk r2
  firstEnds : forall box, box ∈ r1 -> column < box.x2
  secondEnds : forall box, box ∈ r2 -> column < box.x2
  fresh : (forall box, box ∈ r1 -> column < box.x1) ∨ (forall box, box ∈ r2 -> column < box.x1)

/-- A box is cut off where the sweep has passed it. -/
theorem rest_of_passed {box : Box} {boxes : List Box} {column : Int} (row : RowOk (box :: boxes))
    (ends : column ≤ box.x2)
    : (RowOk (if box.x2 = column then boxes else box :: boxes)) ∧
      (forall other, other ∈ (if box.x2 = column then boxes else box :: boxes) -> column < other.x2) ∧
      (box.x2 = column -> forall other, other ∈ boxes -> column < other.x1) ∧ (forall place, column ≤ place ->
        (RowHas (if box.x2 = column then boxes else box :: boxes) place <-> RowHas (box :: boxes) place)) := by
  have later : forall other, other ∈ boxes -> box.x2 < other.x1 := (List.pairwise_cons.mp row.apart).1
  have laterWide : forall other, other ∈ boxes -> other.x1 < other.x2 :=
    fun other member => row.wide other (List.mem_cons_of_mem box member)
  refine ⟨?_, ?_, ?_, ?_⟩
  · split
    · exact row.tail
    · exact row
  · intro other member
    split at member
    · have starts := later other member
      have wide := laterWide other member
      omega
    · rcases List.mem_cons.mp member with same | rest
      · rw [same]
        omega
      · have starts := later other rest
        have wide := laterWide other rest
        omega
  · intro passed other member
    have starts := later other member
    omega
  · intro place after
    split
    next passed => exact (rowHas_rest (by omega)).symm
    next => exact Iff.rfl

/-- The flags that two boxes show. -/
theorem testBoxes_iff (res : Flags) (b1 b2 : Box) (flag : Flag) : testBoxes res b1 b2 flag = true <-> res flag = true ∨
          (if max b1.x1 b2.x1 < min b1.x2 b2.x2 then
            flag = .shared ∨ (flag = .leftExclusive ∧ (b1.x1 < b2.x1 ∨ b1.x2 > b2.x2)) ∨
              (flag = .rightExclusive ∧ (b2.x1 < b1.x1 ∨ b2.x2 > b1.x2))
          else (flag = .leftExclusive ∧ b1.x1 < b2.x1) ∨ (flag = .rightExclusive ∧ ¬ b1.x1 < b2.x1)) := by
  unfold testBoxes
  by_cases overlap : max b1.x1 b2.x1 < min b1.x2 b2.x2
  · rw [if_pos overlap, if_pos overlap, Flags.setIf_iff, Flags.setIf_iff, Flags.set_iff, Bool.or_eq_true,
      Bool.or_eq_true, decide_eq_true_iff, decide_eq_true_iff, decide_eq_true_iff, decide_eq_true_iff]
    tauto
  · rw [if_neg overlap, if_neg overlap]
    by_cases leftmost : b1.x1 < b2.x1
    · rw [if_pos leftmost, Flags.set_iff]
      tauto
    · rw [if_neg leftmost, Flags.set_iff]
      tauto

/-- One round of `test_band`: what two boxes show is shown by columns from here on, and they show
what the columns up to the first end show. -/
theorem testBoxes_spec {b1 b2 : Box} {t1 t2 : List Box} {column : Int} (rows : RowsAt column (b1 :: t1) (b2 :: t2))
    (res : Flags) (flag : Flag) : (testBoxes res b1 b2 flag = true ->
        res flag = true ∨ Exists fun place => column ≤ place ∧
          Shows (RowHas (b1 :: t1)) (RowHas (b2 :: t2)) flag place) ∧
      (res flag = true -> testBoxes res b1 b2 flag = true) ∧ (forall place, column ≤ place -> place < min b1.x2 b2.x2 ->
        Shows (RowHas (b1 :: t1)) (RowHas (b2 :: t2)) flag place -> testBoxes res b1 b2 flag = true) := by
  have wide1 := rows.first.wide b1 List.mem_cons_self
  have wide2 := rows.second.wide b2 List.mem_cons_self
  have ends1 := rows.firstEnds b1 List.mem_cons_self
  have ends2 := rows.secondEnds b2 List.mem_cons_self
  have fresh : column < b1.x1 ∨ column < b2.x1 :=
    rows.fresh.imp (fun all => all b1 List.mem_cons_self) (fun all => all b2 List.mem_cons_self)
  -- up to the first end, only the two boxes count
  have here : forall place, place ≤ b1.x2 -> place ≤ b2.x2 ->
      (Shows (RowHas (b1 :: t1)) (RowHas (b2 :: t2)) flag place <->
        Shows (fun place => b1.x1 ≤ place ∧ place < b1.x2) (fun place => b2.x1 ≤ place ∧ place < b2.x2) flag place) :=
    fun place before1 before2 => Shows.congr (rowHas_first rows.first before1) (rowHas_first rows.second before2)
  rw [testBoxes_iff]
  refine ⟨?_, Or.inl, ?_⟩
  · rintro (earlier | now)
    · exact Or.inl earlier
    · refine Or.inr ?_
      by_cases overlap : max b1.x1 b2.x1 < min b1.x2 b2.x2
      · rw [if_pos overlap] at now
        rcases now with rfl | ⟨rfl, starts | ends⟩ | ⟨rfl, starts | ends⟩
        · exact ⟨max column (max b1.x1 b2.x1), by omega,
            (here _ (by omega) (by omega)).mpr ⟨by constructor <;> omega, by constructor <;> omega⟩⟩
        · exact ⟨max column b1.x1, by omega,
            (here _ (by omega) (by omega)).mpr ⟨by constructor <;> omega, fun other => by omega⟩⟩
        · exact ⟨b2.x2, by omega,
            (here _ (by omega) (by omega)).mpr ⟨by constructor <;> omega, fun other => by omega⟩⟩
        · exact ⟨max column b2.x1, by omega,
            (here _ (by omega) (by omega)).mpr ⟨by constructor <;> omega, fun other => by omega⟩⟩
        · exact ⟨b1.x2, by omega,
            (here _ (by omega) (by omega)).mpr ⟨by constructor <;> omega, fun other => by omega⟩⟩
      · rw [if_neg overlap] at now
        rcases now with ⟨rfl, leftmost⟩ | ⟨rfl, leftmost⟩
        · exact ⟨max column b1.x1, by omega,
            (here _ (by omega) (by omega)).mpr ⟨by constructor <;> omega, fun other => by omega⟩⟩
        · exact ⟨max column b2.x1, by omega,
            (here _ (by omega) (by omega)).mpr ⟨by constructor <;> omega, fun other => by omega⟩⟩
  · intro place after before shown
    have counted := (here place (by omega) (by omega)).mp shown
    refine Or.inr ?_
    by_cases overlap : max b1.x1 b2.x1 < min b1.x2 b2.x2
    · rw [if_pos overlap]
      cases flag with
      | leftExclusive =>
          obtain ⟨has, lacks⟩ := counted
          exact Or.inr (Or.inl ⟨rfl, by omega⟩)
      | rightExclusive =>
          obtain ⟨has, lacks⟩ := counted
          exact Or.inr (Or.inr ⟨rfl, by omega⟩)
      | shared => exact Or.inl rfl
    · rw [if_neg overlap]
      cases flag with
      | leftExclusive =>
          obtain ⟨has, lacks⟩ := counted
          exact Or.inl ⟨rfl, by omega⟩
      | rightExclusive =>
          obtain ⟨has, lacks⟩ := counted
          exact Or.inr ⟨rfl, by omega⟩
      | shared =>
          obtain ⟨has1, has2⟩ := counted
          omega

/-- One list has ended: the other one is alone. -/
theorem leftOver_iff {Point : Type} {first second : Point -> Prop} {r1 r2 : List Box} {inRange : Point -> Prop}
    (ended : r1 = [] ∨ r2 = []) (firstSome : r1 ≠ [] -> Exists fun point => inRange point ∧ first point)
    (secondSome : r2 ≠ [] -> Exists fun point => inRange point ∧ second point)
    (firstNone : r1 = [] -> forall point, ¬ first point) (secondNone : r2 = [] -> forall point, ¬ second point)
    (res : Flags) (flag : Flag) : leftOver res r1 r2 flag = true <->
        res flag = true ∨ Exists fun point => inRange point ∧ Shows first second flag point := by
  unfold leftOver
  by_cases left : r1 = []
  · rw [if_neg (fun some => some left)]
    have lacks := firstNone left
    by_cases right : r2 = []
    · rw [if_neg (fun some => some right)]
      constructor
      · exact Or.inl
      · rintro (earlier | ⟨point, _, shown⟩)
        · exact earlier
        · exact absurd shown (not_shows (lacks point) (secondNone right point))
    · rw [if_pos right, Flags.set_iff]
      constructor
      · rintro (rfl | earlier)
        · obtain ⟨point, there, has⟩ := secondSome right
          exact Or.inr ⟨point, there, has, lacks point⟩
        · exact Or.inl earlier
      · rintro (earlier | ⟨point, _, shown⟩)
        · exact Or.inr earlier
        · by_cases has : second point
          · exact Or.inl ((shows_right (lacks point) has).mp shown)
          · exact absurd shown (not_shows (lacks point) has)
  · rw [if_pos left, Flags.set_iff]
    have lacks := secondNone (ended.resolve_left left)
    constructor
    · rintro (rfl | earlier)
      · obtain ⟨point, there, has⟩ := firstSome left
        exact Or.inr ⟨point, there, has, lacks point⟩
      · exact Or.inl earlier
    · rintro (earlier | ⟨point, _, shown⟩)
      · exact Or.inr earlier
      · by_cases has : first point
        · exact Or.inl ((shows_left has (lacks point)).mp shown)
        · exact absurd shown (not_shows has (lacks point))

theorem exists_column {boxes : List Box} {column : Int} (row : RowOk boxes)
    (ends : forall box, box ∈ boxes -> column < box.x2)
    (some : boxes ≠ []) : Exists fun place => column ≤ place ∧ RowHas boxes place := by
  obtain ⟨box, rest, rfl⟩ := List.exists_cons_of_ne_nil some
  have wide := row.wide box List.mem_cons_self
  have after := ends box List.mem_cons_self
  exact ⟨max column box.x1, by omega, box, List.mem_cons_self, by omega, by omega⟩

theorem RowsAt.next {b1 b2 : Box} {t1 t2 : List Box} {column : Int} (rows : RowsAt column (b1 :: t1) (b2 :: t2))
    : RowsAt (min b1.x2 b2.x2) (if b1.x2 = min b1.x2 b2.x2 then t1 else b1 :: t1)
        (if b2.x2 = min b1.x2 b2.x2 then t2 else b2 :: t2) := by
  obtain ⟨row1, ends1, fresh1, _⟩ := rest_of_passed rows.first (min_le_left b1.x2 b2.x2)
  obtain ⟨row2, ends2, fresh2, _⟩ := rest_of_passed rows.second (min_le_right b1.x2 b2.x2)
  refine ⟨row1, row2, ends1, ends2, ?_⟩
  by_cases passed : b1.x2 = min b1.x2 b2.x2
  · rw [if_pos passed]
    exact Or.inl (fresh1 passed)
  · have passed2 : b2.x2 = min b1.x2 b2.x2 := by omega
    rw [if_pos passed2]
    exact Or.inr (fresh2 passed2)

theorem length_of_passed {Item : Type} {head1 head2 : Item} {tail1 tail2 : List Item} {passed1 passed2 : Prop}
    [Decidable passed1] [Decidable passed2] {fuel : Nat} (one : passed1 ∨ passed2)
    (enough : (head1 :: tail1).length + (head2 :: tail2).length ≤ fuel + 1)
    : (if passed1 then tail1 else head1 :: tail1).length + (if passed2 then tail2
      else head2 :: tail2).length ≤ fuel := by
  rw [List.length_cons, List.length_cons] at enough
  by_cases first : passed1
  · rw [if_pos first]
    split
    · omega
    · rw [List.length_cons]
      omega
  · rw [if_neg first, if_pos (one.resolve_left first), List.length_cons]
    omega

/-- The loop of `test_band` finds what the columns from its place on show. -/
theorem testBandLoop_iff {query : Flags} (requested : query flag = true)
    : forall (fuel : Nat) (res : Flags) (r1 r2 : List Box) (column : Int), r1.length + r2.length ≤ fuel ->
      RowsAt column r1 r2 ->
        (testBandLoop query fuel res r1 r2 flag = true <->
          res flag = true ∨ Exists fun place => column ≤ place ∧ Shows (RowHas r1) (RowHas r2) flag place) := by
  have ended : forall (fuel : Nat) (res : Flags) (r1 r2 : List Box) (column : Int), RowsAt column r1 r2 ->
      r1 = [] ∨ r2 = [] ->
      (testBandLoop query fuel res r1 r2 flag = true <->
        res flag = true ∨ Exists fun place => column ≤ place ∧ Shows (RowHas r1) (RowHas r2) flag place) := by
    intro fuel res r1 r2 column rows oneEnded
    have leaves : testBandLoop query fuel res r1 r2 = leftOver res r1 r2 := by
      rcases oneEnded with rfl | rfl
      · cases fuel <;> rfl
      · cases fuel <;> cases r1 <;> rfl
    rw [leaves]
    exact leftOver_iff oneEnded (exists_column rows.first rows.firstEnds) (exists_column rows.second rows.secondEnds)
      (fun none place => none ▸ rowHas_nil place) (fun none place => none ▸ rowHas_nil place) res flag
  intro fuel
  induction fuel with
  | zero =>
      intro res r1 r2 column enough rows
      exact ended 0 res r1 r2 column rows (Or.inl (List.length_eq_zero_iff.mp (by omega)))
  | succ fuel ih =>
      intro res r1 r2 column enough rows
      match r1, r2 with
      | [], r2 => exact ended _ res [] r2 column rows (Or.inl rfl)
      | b1 :: t1, [] => exact ended _ res (b1 :: t1) [] column rows (Or.inr rfl)
      | b1 :: t1, b2 :: t2 =>
          obtain ⟨sound, kept, complete⟩ := testBoxes_spec rows res flag
          have ends1 := rows.firstEnds b1 List.mem_cons_self
          have ends2 := rows.secondEnds b2 List.mem_cons_self
          obtain ⟨_, _, _, same1⟩ := rest_of_passed rows.first (min_le_left b1.x2 b2.x2)
          obtain ⟨_, _, _, same2⟩ := rest_of_passed rows.second (min_le_right b1.x2 b2.x2)
          rw [testBandLoop]
          by_cases covered : (testBoxes res b1 b2).covers query = true
          · rw [if_pos covered]
            exact ⟨sound, fun _ => Flags.of_covers covered requested⟩
          · rw [if_neg covered]
            have shorter : (if b1.x2 = min b1.x2 b2.x2 then t1 else b1 :: t1).length +
                (if b2.x2 = min b1.x2 b2.x2 then t2 else b2 :: t2).length ≤ fuel :=
              length_of_passed (by omega) enough
            rw [ih (testBoxes res b1 b2) _ _ (min b1.x2 b2.x2) shorter rows.next]
            constructor
            · rintro (found | ⟨place, after, shown⟩)
              · exact sound found
              · exact Or.inr ⟨place, by omega, (Shows.congr (same1 place after) (same2 place after)).mp shown⟩
            · rintro (earlier | ⟨place, after, shown⟩)
              · exact Or.inl (kept earlier)
              · by_cases before : place < min b1.x2 b2.x2
                · exact Or.inl (complete place after before shown)
                · have passed : min b1.x2 b2.x2 ≤ place := by omega
                  exact Or.inr ⟨place, passed, (Shows.congr (same1 place passed) (same2 place passed)).mpr shown⟩

theorem exists_before (boxes : List Box) : Exists fun column : Int => forall box, box ∈ boxes -> column < box.x1 := by
  induction boxes with
  | nil => exact ⟨0, fun box member => nomatch member⟩
  | cons box rest ih =>
      obtain ⟨column, before⟩ := ih
      refine ⟨min column (box.x1 - 1), ?_⟩
      intro other member
      rcases List.mem_cons.mp member with same | later
      · rw [same]
        omega
      · have starts := before other later
        omega

/-- The flags that two rows of boxes show. -/
theorem testBand_iff {query : Flags} (requested : query flag = true) (res : Flags) {r1 r2 : List Box}
    (row1 : RowOk r1) (row2 : RowOk r2) : testBand query res r1 r2 flag = true <->
        res flag = true ∨ Exists fun place => Shows (RowHas r1) (RowHas r2) flag place := by
  obtain ⟨column, before⟩ := exists_before (r1 ++ r2)
  have before1 : forall box, box ∈ r1 -> column < box.x1 :=
    fun box member => before box (List.mem_append_left r2 member)
  have before2 : forall box, box ∈ r2 -> column < box.x1 :=
    fun box member => before box (List.mem_append_right r1 member)
  have rows : RowsAt column r1 r2 :=
    ⟨row1, row2, fun box member => lt_trans (before1 box member) (row1.wide box member),
      fun box member => lt_trans (before2 box member) (row2.wide box member), Or.inl before1⟩
  unfold testBand
  rw [testBandLoop_iff requested _ res r1 r2 column (le_refl _) rows]
  constructor
  · rintro (earlier | ⟨place, _, shown⟩)
    · exact Or.inl earlier
    · exact Or.inr ⟨place, shown⟩
  · rintro (earlier | ⟨place, shown⟩)
    · exact Or.inl earlier
    · refine Or.inr ⟨place, ?_, shown⟩
      -- a column before all boxes shows nothing
      by_contra outside
      have lacks1 : ¬ RowHas r1 place := by
        rintro ⟨box, member, starts, _⟩
        have after := before1 box member
        omega
      have lacks2 : ¬ RowHas r2 place := by
        rintro ⟨box, member, starts, _⟩
        have after := before2 box member
        omega
      exact not_shows lacks1 lacks2 shown

/-! ## The boxes of bands -/

/-- A box has the point. -/
def Covers (boxes : List Box) (point : Int × Int) : Prop := Exists fun box => box ∈ boxes ∧ box.Has point

theorem covers_nil (point : Int × Int) : ¬ Covers [] point := by
  rintro ⟨box, member, _⟩
  cases member

theorem boxesOf_cons (band : Band) (bands : List Band) : boxesOf (band :: bands) = band.boxes ++ boxesOf bands := rfl

theorem covers_append (first second : List Box) (point : Int × Int)
    : Covers (first ++ second) point <-> Covers first point ∨ Covers second point := by
  simp only [Covers, List.mem_append, or_and_right, exists_or]

theorem Band.Ok.covers {band : Band} (ok : band.Ok) (point : Int × Int)
    : Covers band.boxes point <-> (band.y1 ≤ point.2 ∧ point.2 < band.y2) ∧ RowHas band.boxes point.1 := by
  constructor
  · rintro ⟨box, member, columns, rows⟩
    obtain ⟨top, bottom⟩ := ok.same box member
    rw [top, bottom] at rows
    exact ⟨rows, box, member, columns⟩
  · rintro ⟨rows, box, member, columns⟩
    obtain ⟨top, bottom⟩ := ok.same box member
    refine ⟨box, member, columns, ?_⟩
    rw [top, bottom]
    exact rows

variable {bands : List Band}

theorem BandsOk.tail {band : Band} (ok : BandsOk (band :: bands)) : BandsOk bands where
  each := fun other member => ok.each other (List.mem_cons_of_mem band member)
  below := (List.pairwise_cons.mp ok.below).2
  apart := ok.apart.tail

theorem not_covers_above {point : Int × Int} (each : forall band, band ∈ bands -> band.Ok)
    (above : forall band, band ∈ bands -> point.2 < band.y1) : ¬ Covers (boxesOf bands) point := by
  rintro ⟨box, member, _, rows⟩
  obtain ⟨band, inside, boxInside⟩ := List.mem_flatMap.mp member
  have top := ((each band inside).same box boxInside).1
  have starts := above band inside
  omega

/-- A point below the top of a band, in a column of its boxes. -/
def Band.Reaches (band : Band) (point : Int × Int) : Prop := band.y1 ≤ point.2 ∧ RowHas band.boxes point.1

theorem covers_first {band : Band} {point : Int × Int} (ok : BandsOk (band :: bands))
    (before : point.2 < band.y2) : Covers (boxesOf (band :: bands)) point <-> band.Reaches point := by
  have later : ¬ Covers (boxesOf bands) point := by
    apply not_covers_above ok.tail.each
    intro other member
    have after := (List.pairwise_cons.mp ok.below).1 other member
    omega
  rw [boxesOf_cons, covers_append, (ok.each band List.mem_cons_self).covers]
  unfold Band.Reaches
  tauto

theorem covers_rest {band : Band} {point : Int × Int} (ok : BandsOk (band :: bands))
    (after : band.y2 ≤ point.2) : Covers (boxesOf (band :: bands)) point <-> Covers (boxesOf bands) point := by
  rw [boxesOf_cons, covers_append, (ok.each band List.mem_cons_self).covers]
  constructor
  · rintro (first | rest)
    · omega
    · exact rest
  · exact Or.inr

/-- The first band ends where the boxes change their height. -/
theorem findBand_boxesOf {band : Band} (ok : BandsOk (band :: bands)) {first : Box} {rest : List Box}
    (same : boxesOf (band :: bands) = first :: rest)
    : findBand first rest = (band.boxes, boxesOf bands) ∧ first.y1 = band.y1 ∧ first.y2 = band.y2 := by
  have bandOk := ok.each band List.mem_cons_self
  obtain ⟨box, more, boxes⟩ := List.exists_cons_of_ne_nil bandOk.some
  rw [boxesOf_cons, boxes, List.cons_append, List.cons.injEq] at same
  obtain ⟨rfl, rfl⟩ := same
  have top := bandOk.same box (boxes ▸ List.mem_cons_self)
  have inBand : forall other, other ∈ more -> decide (other.y1 = box.y1) = true := by
    intro other member
    have otherTop := bandOk.same other (boxes ▸ List.mem_cons_of_mem box member)
    exact decide_eq_true (by omega)
  have stops : (boxesOf bands).takeWhile (fun other => other.y1 = box.y1) = [] ∧
      (boxesOf bands).dropWhile (fun other => other.y1 = box.y1) = boxesOf bands := by
    cases next : boxesOf bands with
    | nil => exact ⟨rfl, rfl⟩
    | cons other others =>
        have member : other ∈ boxesOf bands := next ▸ List.mem_cons_self
        obtain ⟨nextBand, inside, boxInside⟩ := List.mem_flatMap.mp member
        have nextTop := ((ok.tail.each nextBand inside).same other boxInside).1
        have after := (List.pairwise_cons.mp ok.below).1 nextBand inside
        have high := bandOk.high
        have differs : ¬ decide (other.y1 = box.y1) = true := by
          rw [decide_eq_true_iff]
          omega
        exact ⟨List.takeWhile_cons_of_neg differs, List.dropWhile_cons_of_neg differs⟩
  refine ⟨?_, top⟩
  unfold findBand
  rw [List.takeWhile_append_of_pos inBand, List.dropWhile_append_of_pos inBand, stops.1, stops.2,
    List.append_nil, boxes]

/-- What is left of two regions from a row on.  Only one of the two can have a band that started
before it. -/
structure BandsAt (row : Int) (bands1 bands2 : List Band) : Prop where
  first : BandsOk bands1
  second : BandsOk bands2
  firstEnds : forall band, band ∈ bands1 -> row < band.y2
  secondEnds : forall band, band ∈ bands2 -> row < band.y2
  fresh : (forall band, band ∈ bands1 -> row ≤ band.y1) ∨ (forall band, band ∈ bands2 -> row ≤ band.y1)

/-- A band is cut off where the sweep has passed it. -/
theorem bands_of_passed {band : Band} {row : Int} (ok : BandsOk (band :: bands)) (ends : row ≤ band.y2)
    : BandsOk (if band.y2 = row then bands else band :: bands) ∧
      (forall other, other ∈ (if band.y2 = row then bands else band :: bands) -> row < other.y2) ∧
      (band.y2 = row -> forall other, other ∈ bands -> row ≤ other.y1) ∧ (forall point : Int × Int, row ≤ point.2 ->
        (Covers (boxesOf (if band.y2 = row then bands else band :: bands)) point <->
          Covers (boxesOf (band :: bands)) point)) := by
  have later : forall other, other ∈ bands -> band.y2 ≤ other.y1 := (List.pairwise_cons.mp ok.below).1
  have laterHigh : forall other, other ∈ bands -> other.y1 < other.y2 :=
    fun other member => (ok.tail.each other member).high
  refine ⟨?_, ?_, ?_, ?_⟩
  · split
    · exact ok.tail
    · exact ok
  · intro other member
    split at member
    · have starts := later other member
      have high := laterHigh other member
      omega
    · rcases List.mem_cons.mp member with same | rest
      · rw [same]
        omega
      · have starts := later other rest
        have high := laterHigh other rest
        omega
  · intro passed other member
    have starts := later other member
    omega
  · intro point after
    split
    next passed => exact (covers_rest ok (by omega)).symm
    next => exact Iff.rfl

theorem BandsAt.next {a b : Band} {t1 t2 : List Band} {row : Int} (bands : BandsAt row (a :: t1) (b :: t2))
    : BandsAt (min a.y2 b.y2) (if a.y2 = min a.y2 b.y2 then t1 else a :: t1) (if b.y2 = min a.y2 b.y2 then t2
      else b :: t2) := by
  obtain ⟨ok1, ends1, fresh1, _⟩ := bands_of_passed bands.first (min_le_left a.y2 b.y2)
  obtain ⟨ok2, ends2, fresh2, _⟩ := bands_of_passed bands.second (min_le_right a.y2 b.y2)
  refine ⟨ok1, ok2, ends1, ends2, ?_⟩
  by_cases passed : a.y2 = min a.y2 b.y2
  · rw [if_pos passed]
    exact Or.inl (fresh1 passed)
  · have passed2 : b.y2 = min a.y2 b.y2 := by omega
    rw [if_pos passed2]
    exact Or.inr (fresh2 passed2)

/-- The first rows of `test_generic` are those where one region is alone. -/
theorem aloneAbove_iff {r1 r2 : Box} {row : Int} (high1 : r1.y1 < r1.y2) (high2 : r2.y1 < r2.y2) (ends1 : row < r1.y2)
    (ends2 : row < r2.y2) (fresh : row ≤ r1.y1 ∨ row ≤ r2.y1) (flag : Flag) : aloneAbove row r1 r2 = some flag <->
        Exists fun place => (row ≤ place ∧ place < min r1.y2 r2.y2) ∧
          ((r1.y1 ≤ place ∧ place < r2.y1 ∧ flag = .leftExclusive) ∨
            (r2.y1 ≤ place ∧ place < r1.y1 ∧ flag = .rightExclusive)) := by
  unfold aloneAbove
  by_cases left : r1.y1 < r2.y1
  · rw [if_pos left]
    by_cases some : max r1.y1 row ≠ min r1.y2 r2.y1
    · rw [if_pos some, Option.some.injEq]
      constructor
      · rintro rfl
        exact ⟨max r1.y1 row, by omega, Or.inl ⟨by omega, by omega, rfl⟩⟩
      · rintro ⟨place, _, ⟨_, _, same⟩ | ⟨_, _, _⟩⟩
        · exact same.symm
        · omega
    · rw [if_neg some]
      constructor
      · intro none
        cases none
      · rintro ⟨place, _, ⟨_, _, _⟩ | ⟨_, _, _⟩⟩
        · omega
        · omega
  · rw [if_neg left]
    by_cases right : r2.y1 < r1.y1
    · rw [if_pos right]
      by_cases some : max r2.y1 row ≠ min r2.y2 r1.y1
      · rw [if_pos some, Option.some.injEq]
        constructor
        · rintro rfl
          exact ⟨max r2.y1 row, by omega, Or.inr ⟨by omega, by omega, rfl⟩⟩
        · rintro ⟨place, _, ⟨_, _, _⟩ | ⟨_, _, same⟩⟩
          · omega
          · exact same.symm
      · rw [if_neg some]
        constructor
        · intro none
          cases none
        · rintro ⟨place, _, ⟨_, _, _⟩ | ⟨_, _, _⟩⟩
          · omega
          · omega
    · rw [if_neg right]
      constructor
      · intro none
        cases none
      · rintro ⟨place, _, ⟨_, _, _⟩ | ⟨_, _, _⟩⟩
        · omega
        · omega

theorem exists_point {row : Int} (ok : BandsOk bands) (ends : forall band, band ∈ bands -> row < band.y2)
    (some : boxesOf bands ≠ []) : Exists fun point : Int × Int => row ≤ point.2 ∧ Covers (boxesOf bands) point := by
  obtain ⟨band, rest, rfl⟩ := List.exists_cons_of_ne_nil (fun none => some (none ▸ rfl) : bands ≠ [])
  have bandOk := ok.each band List.mem_cons_self
  obtain ⟨box, member⟩ := List.exists_mem_of_ne_nil band.boxes bandOk.some
  have wide := bandOk.row.wide box member
  have high := bandOk.high
  have after := ends band List.mem_cons_self
  refine ⟨(box.x1, max row band.y1), le_max_left row band.y1, ?_⟩
  rw [boxesOf_cons, covers_append, bandOk.covers]
  exact Or.inl ⟨⟨le_max_right row band.y1, by omega⟩, box, member, le_refl _, wide⟩

/-- What the rows up to the first end show: where one region is alone, and in rows of both what
the columns of the two bands show. -/
theorem round_iff {a b : Band} {t1 t2 : List Band} {row : Int} (bands : BandsAt row (a :: t1) (b :: t2)) {r1 r2 : Box}
    (head1 : r1.y1 = a.y1 ∧ r1.y2 = a.y2) (head2 : r2.y1 = b.y1 ∧ r2.y2 = b.y2) (flag : Flag)
    : (Exists fun point : Int × Int => (row ≤ point.2 ∧ point.2 < min a.y2 b.y2) ∧
          Shows (Covers (boxesOf (a :: t1))) (Covers (boxesOf (b :: t2))) flag point) <->
            aloneAbove row r1 r2 = some flag ∨
          (max a.y1 b.y1 < min a.y2 b.y2 ∧ Exists fun place => Shows (RowHas a.boxes) (RowHas b.boxes) flag place) := by
  have okA := bands.first.each a List.mem_cons_self
  have okB := bands.second.each b List.mem_cons_self
  have highA := okA.high
  have highB := okB.high
  have endsA := bands.firstEnds a List.mem_cons_self
  have endsB := bands.secondEnds b List.mem_cons_self
  have fresh : row ≤ a.y1 ∨ row ≤ b.y1 :=
    bands.fresh.imp (fun all => all a List.mem_cons_self) (fun all => all b List.mem_cons_self)
  have here : forall point : Int × Int, point.2 < min a.y2 b.y2 ->
      (Shows (Covers (boxesOf (a :: t1))) (Covers (boxesOf (b :: t2))) flag point <->
        Shows a.Reaches b.Reaches flag point) :=
    fun point before => Shows.congr (covers_first bands.first (by omega)) (covers_first bands.second (by omega))
  rw [aloneAbove_iff (by omega) (by omega) (by omega) (by omega) (by omega) flag, head1.1, head1.2, head2.1, head2.2]
  constructor
  · rintro ⟨point, ⟨after, before⟩, shown⟩
    have counted := (here point before).mp shown
    by_cases inA : a.y1 ≤ point.2
    · by_cases inB : b.y1 ≤ point.2
      · refine Or.inr ⟨by omega, point.1, ?_⟩
        have columnsA : a.Reaches point <-> RowHas a.boxes point.1 := and_iff_right inA
        have columnsB : b.Reaches point <-> RowHas b.boxes point.1 := and_iff_right inB
        exact (Shows.congr columnsA columnsB).mp counted
      · have lacks : ¬ b.Reaches point := fun has => inB has.1
        by_cases has : a.Reaches point
        · have only := (shows_left has lacks).mp counted
          exact Or.inl ⟨point.2, ⟨after, before⟩, Or.inl ⟨inA, by omega, only⟩⟩
        · exact absurd counted (not_shows has lacks)
    · have lacks : ¬ a.Reaches point := fun has => inA has.1
      by_cases has : b.Reaches point
      · have only := (shows_right lacks has).mp counted
        exact Or.inl ⟨point.2, ⟨after, before⟩, Or.inr ⟨has.1, by omega, only⟩⟩
      · exact absurd counted (not_shows lacks has)
  · rintro (⟨place, range, ⟨inA, above, rfl⟩ | ⟨inB, above, rfl⟩⟩ | ⟨overlap, column, shown⟩)
    · obtain ⟨box, member⟩ := List.exists_mem_of_ne_nil a.boxes okA.some
      have wide := okA.row.wide box member
      refine ⟨(box.x1, place), range, (here _ range.2).mpr ?_⟩
      exact ⟨⟨inA, box, member, le_refl _, wide⟩, fun has => absurd has.1 (not_le.mpr above)⟩
    · obtain ⟨box, member⟩ := List.exists_mem_of_ne_nil b.boxes okB.some
      have wide := okB.row.wide box member
      refine ⟨(box.x1, place), range, (here _ range.2).mpr ?_⟩
      exact ⟨⟨inB, box, member, le_refl _, wide⟩, fun has => absurd has.1 (not_le.mpr above)⟩
    · have columnsA : a.Reaches (column, max row (max a.y1 b.y1)) <-> RowHas a.boxes column := and_iff_right (by omega)
      have columnsB : b.Reaches (column, max row (max a.y1 b.y1)) <-> RowHas b.boxes column := and_iff_right (by omega)
      refine ⟨(column, max row (max a.y1 b.y1)), by omega, (here _ (by omega)).mpr ?_⟩
      exact (Shows.congr columnsA columnsB).mpr shown

/-- The loop of `test_generic` finds what the rows from its place on show. -/
theorem testGenericLoop_iff {query : Flags} (requested : query flag = true)
    : forall (fuel : Nat) (res : Flags) (bands1 bands2 : List Band) (row : Int), bands1.length + bands2.length ≤ fuel ->
        BandsAt row bands1 bands2 ->
          (testGenericLoop query fuel row res (boxesOf bands1) (boxesOf bands2) flag = true <->
          res flag = true ∨ Exists fun point : Int × Int => row ≤ point.2 ∧
            Shows (Covers (boxesOf bands1)) (Covers (boxesOf bands2)) flag point) := by
  have ended : forall (fuel : Nat) (res : Flags) (bands1 bands2 : List Band) (row : Int), BandsAt row bands1 bands2 ->
      bands1 = [] ∨ bands2 = [] ->
      (testGenericLoop query fuel row res (boxesOf bands1) (boxesOf bands2) flag = true <->
        res flag = true ∨ Exists fun point : Int × Int => row ≤ point.2 ∧
          Shows (Covers (boxesOf bands1)) (Covers (boxesOf bands2)) flag point) := by
    intro fuel res bands1 bands2 row bands oneEnded
    have boxesEnded : boxesOf bands1 = [] ∨ boxesOf bands2 = [] :=
      oneEnded.imp (congrArg boxesOf) (congrArg boxesOf)
    have leaves : testGenericLoop query fuel row res (boxesOf bands1) (boxesOf bands2) =
        (leftOver res (boxesOf bands1) (boxesOf bands2)).and query := by
      rcases boxesEnded with none | none
      · rw [none]
        cases fuel <;> rfl
      · rw [none]
        cases fuel <;> cases boxesOf bands1 <;> rfl
    rw [leaves, Flags.and_iff, and_iff_left requested]
    exact leftOver_iff boxesEnded (exists_point bands.first bands.firstEnds)
      (exists_point bands.second bands.secondEnds)
      (fun none point => none ▸ covers_nil point) (fun none point => none ▸ covers_nil point) res flag
  intro fuel
  induction fuel with
  | zero =>
      intro res bands1 bands2 row enough bands
      exact ended 0 res bands1 bands2 row bands (Or.inl (List.length_eq_zero_iff.mp (by omega)))
  | succ fuel ih =>
      intro res bands1 bands2 row enough bands
      match bands1, bands2 with
      | [], bands2 => exact ended _ res [] bands2 row bands (Or.inl rfl)
      | a :: t1, [] => exact ended _ res (a :: t1) [] row bands (Or.inr rfl)
      | a :: t1, b :: t2 =>
          have okA := bands.first.each a List.mem_cons_self
          have okB := bands.second.each b List.mem_cons_self
          have someA : boxesOf (a :: t1) ≠ [] := fun none => okA.some (List.append_eq_nil_iff.mp none).1
          have someB : boxesOf (b :: t2) ≠ [] := fun none => okB.some (List.append_eq_nil_iff.mp none).1
          obtain ⟨r1, rest1, list1⟩ := List.exists_cons_of_ne_nil someA
          obtain ⟨r2, rest2, list2⟩ := List.exists_cons_of_ne_nil someB
          obtain ⟨found1, head1⟩ := findBand_boxesOf bands.first list1
          obtain ⟨found2, head2⟩ := findBand_boxesOf bands.second list2
          obtain ⟨_, _, _, same1⟩ := bands_of_passed bands.first (min_le_left a.y2 b.y2)
          obtain ⟨_, _, _, same2⟩ := bands_of_passed bands.second (min_le_right a.y2 b.y2)
          have step := round_iff bands head1 head2 flag
          have ytop : (if r1.y1 < r2.y1 then r2.y1 else r1.y1) = max a.y1 b.y1 := by
            rw [head1.1, head2.1]
            split <;> omega
          rw [list1, list2] at step
          rw [list1, list2, testGenericLoop, found1, found2, ytop, head1.2, head2.2]
          dsimp only
          have aloneFound := res.setSome_iff (aloneAbove row r1 r2) flag
          generalize res.setSome (aloneAbove row r1 r2) = resAlone at aloneFound ⊢
          -- what the rows of both bands add
          have bandFound : (if min a.y2 b.y2 > max a.y1 b.y1 then testBand query resAlone a.boxes b.boxes
              else resAlone) flag = true <->
              resAlone flag = true ∨ (max a.y1 b.y1 < min a.y2 b.y2 ∧
                Exists fun place => Shows (RowHas a.boxes) (RowHas b.boxes) flag place) := by
            by_cases overlap : min a.y2 b.y2 > max a.y1 b.y1
            · rw [if_pos overlap, testBand_iff requested resAlone okA.row okB.row, and_iff_right overlap]
            · rw [if_neg overlap]
              exact ⟨Or.inl, fun found => found.resolve_right (fun both => overlap both.1)⟩
          generalize (if min a.y2 b.y2 > max a.y1 b.y1 then testBand query resAlone a.boxes b.boxes
            else resAlone) = resBand
            at bandFound ⊢
          have roundFound : resBand flag = true <-> res flag = true ∨ Exists fun point : Int × Int =>
              (row ≤ point.2 ∧ point.2 < min a.y2 b.y2) ∧
                Shows (Covers (r1 :: rest1)) (Covers (r2 :: rest2)) flag point := by
            rw [bandFound, aloneFound, step, or_assoc]
          have sound : resBand flag = true -> res flag = true ∨ Exists fun point : Int × Int =>
              row ≤ point.2 ∧ Shows (Covers (r1 :: rest1)) (Covers (r2 :: rest2)) flag point := by
            intro found
            refine (roundFound.mp found).imp_right ?_
            rintro ⟨point, range, shown⟩
            exact ⟨point, range.1, shown⟩
          by_cases firstCovers : ((aloneAbove row r1 r2).isSome && resAlone.covers query) = true
          · rw [if_pos firstCovers, Flags.and_iff, and_iff_left requested]
            have all := Flags.of_covers (Bool.and_eq_true_iff.mp firstCovers).2 requested
            exact ⟨fun _ => sound (bandFound.mpr (Or.inl all)), fun _ => all⟩
          · rw [if_neg firstCovers]
            by_cases secondCovers : (decide (min a.y2 b.y2 > max a.y1 b.y1) && resBand.covers query) = true
            · rw [if_pos secondCovers, Flags.and_iff, and_iff_left requested]
              exact ⟨sound, fun _ => Flags.of_covers (Bool.and_eq_true_iff.mp secondCovers).2 requested⟩
            · rw [if_neg secondCovers, <- list1, <- list2, <- apply_ite boxesOf, <- apply_ite boxesOf]
              have shorter : (if a.y2 = min a.y2 b.y2 then t1 else a :: t1).length +
                  (if b.y2 = min a.y2 b.y2 then t2 else b :: t2).length ≤ fuel :=
                length_of_passed (by omega) enough
              rw [ih resBand _ _ (min a.y2 b.y2) shorter bands.next]
              rw [<- list1, <- list2] at sound roundFound
              have endsA := bands.firstEnds a List.mem_cons_self
              have endsB := bands.secondEnds b List.mem_cons_self
              constructor
              · rintro (found | ⟨point, after, shown⟩)
                · exact sound found
                · exact Or.inr ⟨point, by omega, (Shows.congr (same1 point after) (same2 point after)).mp shown⟩
              · rintro (earlier | ⟨point, after, shown⟩)
                · exact Or.inl (roundFound.mpr (Or.inl earlier))
                · by_cases before : point.2 < min a.y2 b.y2
                  · exact Or.inl (roundFound.mpr (Or.inr ⟨point, ⟨after, before⟩, shown⟩))
                  · have passed : min a.y2 b.y2 ≤ point.2 := by omega
                    exact Or.inr ⟨point, passed, (Shows.congr (same1 point passed) (same2 point passed)).mpr shown⟩

end Region
end Spice
