import Spice.Region.Sweep

namespace Spice
namespace Region

/-!
# What `region_test` finds

`region_test` against the points of its regions: each of its short cuts for rectangles and for
extents, and `test_generic` for the rest.  A mask of zero asks for everything, which is where it
differs from `slow_region_test`.
-/

theorem bandsOk_single {extents : Box} (wide : extents.x1 < extents.x2) (high : extents.y1 < extents.y2)
    : BandsOk [⟨extents.y1, extents.y2, [extents]⟩] := by
  have row : RowOk [extents] := by
    refine ⟨?_, List.pairwise_singleton _ extents⟩
    intro box member
    rw [List.mem_singleton.mp member]
    exact wide
  refine ⟨?_, List.pairwise_singleton _ _, List.isChain_singleton _⟩
  intro band member
  rw [List.mem_singleton.mp member]
  refine ⟨high, List.cons_ne_nil extents [], row, ?_⟩
  intro box inside
  rw [List.mem_singleton.mp inside]
  exact ⟨rfl, rfl⟩

theorem extentsOf_single (extents : Box) : ExtentsOf extents [extents] := by
  have member : extents ∈ [extents] := List.mem_singleton_self extents
  refine ⟨?_, ⟨extents, member, rfl⟩, ⟨extents, member, rfl⟩, ⟨extents, member, rfl⟩, ⟨extents, member, rfl⟩⟩
  intro box inside
  rw [List.mem_singleton.mp inside]
  exact ⟨⟨le_refl _, le_refl _⟩, le_refl _, le_refl _⟩

namespace QRegion

theorem banded {region : QRegion} (nonempty : region.notEmpty = true)
    : Exists fun bands => BandsOk bands ∧ region.rectangles = boxesOf bands ∧ bands ≠ [] ∧
        ExtentsOf region.extents (boxesOf bands) := by
  obtain ⟨extents, data, canonical⟩ := region
  cases data with
  | none => exact ⟨_, bandsOk_single canonical.1 canonical.2, rfl, List.cons_ne_nil _ _, extentsOf_single extents⟩
  | some rects =>
      rcases canonical with rfl | ⟨many, around, bands, ok, same⟩
      · cases nonempty
      · refine ⟨bands, ok, same, ?_, same ▸ around⟩
        rintro rfl
        rw [same] at many
        exact absurd many (by decide)

theorem mem_points (region : QRegion) (point : Int × Int) :
    point ∈ region.points <-> Covers region.rectangles point := Iff.rfl

/-- A region that is not empty has a point. -/
theorem notEmpty_iff (region : QRegion) : region.notEmpty = true <-> Exists fun point => point ∈ region.points := by
  constructor
  · intro some
    obtain ⟨bands, ok, same, nonempty, _⟩ := region.banded some
    obtain ⟨band, rest, rfl⟩ := List.exists_cons_of_ne_nil nonempty
    have bandOk := ok.each band List.mem_cons_self
    obtain ⟨box, member⟩ := List.exists_mem_of_ne_nil band.boxes bandOk.some
    refine ⟨(box.x1, band.y1), ?_⟩
    rw [mem_points, same, boxesOf_cons, covers_append, bandOk.covers]
    exact Or.inl ⟨⟨le_refl _, bandOk.high⟩, box, member, le_refl _, bandOk.row.wide box member⟩
  · rintro ⟨point, box, member, _⟩
    by_contra none
    have empty : region.data = some [] := by simpa [notEmpty] using none
    rw [rectangles, empty] at member
    cases member

theorem points_within (region : QRegion) {point : Int × Int} (has : point ∈ region.points) :
    region.extents.Has point := by
  obtain ⟨bands, ok, same, _, around⟩ := region.banded ((region.notEmpty_iff).mpr ⟨point, has⟩)
  rw [mem_points, same] at has
  obtain ⟨box, member, columns, rows⟩ := has
  obtain ⟨withinColumns, withinRows⟩ := around.within box member
  exact ⟨⟨by omega, by omega⟩, by omega, by omega⟩

theorem points_rectangle {region : QRegion} (single : region.data = none) (point : Int × Int)
    : point ∈ region.points <-> region.extents.Has point := by
  rw [mem_points, rectangles, single]
  constructor
  · rintro ⟨box, member, has⟩
    rw [List.mem_singleton.mp member] at has
    exact has
  · intro has
    exact ⟨region.extents, List.mem_singleton_self region.extents, has⟩

end QRegion

/-! ## Extents -/

theorem has_of_subsumes {r1 r2 : Box} (within : subsumes r1 r2 = true) {point : Int × Int} (has : r2.Has point) :
    r1.Has point := by
  simp only [subsumes, Bool.and_eq_true, decide_eq_true_eq] at within
  obtain ⟨columns, rows⟩ := has
  exact ⟨⟨by omega, by omega⟩, by omega, by omega⟩

/-- A rectangle that is not inside of another has a point outside. -/
theorem exists_outside {r1 r2 : Box} (wide : r2.x1 < r2.x2) (high : r2.y1 < r2.y2) (outside : ¬ subsumes r1 r2 = true)
    : Exists fun point => r2.Has point ∧ ¬ r1.Has point := by
  have which : r2.x1 < r1.x1 ∨ r1.x2 < r2.x2 ∨ r2.y1 < r1.y1 ∨ r1.y2 < r2.y2 := by
    simp only [subsumes, Bool.and_eq_true, decide_eq_true_eq] at outside
    omega
  rcases which with left | right | top | bottom
  · refine ⟨(r2.x1, r2.y1), ⟨⟨le_refl _, wide⟩, le_refl _, high⟩, fun has => ?_⟩
    have starts : r1.x1 ≤ r2.x1 := has.1.1
    omega
  · refine ⟨(r2.x2 - 1, r2.y1), ⟨⟨by omega, by omega⟩, le_refl _, high⟩, fun has => ?_⟩
    have ends : r2.x2 - 1 < r1.x2 := has.1.2
    omega
  · refine ⟨(r2.x1, r2.y1), ⟨⟨le_refl _, wide⟩, le_refl _, high⟩, fun has => ?_⟩
    have starts : r1.y1 ≤ r2.y1 := has.2.1
    omega
  · refine ⟨(r2.x1, r2.y2 - 1), ⟨⟨le_refl _, wide⟩, by omega, by omega⟩, fun has => ?_⟩
    have ends : r2.y2 - 1 < r1.y2 := has.2.2
    omega

theorem extentCheck_of_shared {r1 r2 : Box} {point : Int × Int} (has1 : r1.Has point) (has2 : r2.Has point)
    : extentCheck r1 r2 = true := by
  obtain ⟨columns1, rows1⟩ := has1
  obtain ⟨columns2, rows2⟩ := has2
  simp only [extentCheck, Bool.not_eq_true', Bool.or_eq_false_iff, decide_eq_false_iff_not]
  omega

theorem shared_of_extentCheck {r1 r2 : Box} (wide1 : r1.x1 < r1.x2) (high1 : r1.y1 < r1.y2) (wide2 : r2.x1 < r2.x2)
    (high2 : r2.y1 < r2.y2) (meet : extentCheck r1 r2 = true) : Exists fun point => r1.Has point ∧ r2.Has point := by
  simp only [extentCheck, Bool.not_eq_true', Bool.or_eq_false_iff, decide_eq_false_iff_not] at meet
  exact ⟨(max r1.x1 r2.x1, max r1.y1 r2.y1), ⟨⟨by omega, by omega⟩, by omega, by omega⟩,
    ⟨by omega, by omega⟩, by omega, by omega⟩

/-! ## A region of several rectangles does not fill its extents -/

/-- A row without gaps is one box. -/
theorem row_of_filled {boxes : List Box} {left right : Int} (row : RowOk boxes) (some : boxes ≠ [])
    (within : forall box, box ∈ boxes -> left ≤ box.x1 ∧ box.x2 ≤ right)
    (filled : forall column, left ≤ column -> column < right -> RowHas boxes column)
    : Exists fun box => boxes = [box] ∧ box.x1 = left ∧ box.x2 = right := by
  obtain ⟨box, rest, rfl⟩ := List.exists_cons_of_ne_nil some
  have wide := row.wide box List.mem_cons_self
  have bounds := within box List.mem_cons_self
  -- the column after the first box is in no box of the row
  have reachesEnd : box.x2 = right := by
    by_contra short
    obtain ⟨starts, ends⟩ := (rowHas_first row (le_refl box.x2)).mp (filled box.x2 (by omega) (by omega))
    omega
  have startsAtLeft : box.x1 = left := by
    have starts := ((rowHas_first row (by omega)).mp (filled left (le_refl left) (by omega))).1
    omega
  refine ⟨box, ?_, startsAtLeft, reachesEnd⟩
  cases rest with
  | nil => rfl
  | cons next others =>
      have after := (List.pairwise_cons.mp row.apart).1 next List.mem_cons_self
      have nextWide := row.wide next (List.mem_cons_of_mem box List.mem_cons_self)
      have nextBounds := within next (List.mem_cons_of_mem box List.mem_cons_self)
      omega

theorem rowHas_of_covers {bands : List Band} {band : Band} {point : Int × Int} (ok : BandsOk bands)
    (member : band ∈ bands)
    (starts : band.y1 ≤ point.2) (ends : point.2 < band.y2) (covered : Covers (boxesOf bands) point)
    : RowHas band.boxes point.1 := by
  induction bands with
  | nil => cases member
  | cons first rest ih =>
      rcases List.mem_cons.mp member with same | later
      · rw [same] at ends ⊢
        exact ((covers_first ok ends).mp covered).2
      · have below := (List.pairwise_cons.mp ok.below).1 band later
        exact ih ok.tail later ((covers_rest ok (by omega)).mp covered)

/-- Two rectangles or more leave a hole in their extents. -/
theorem exists_hole {extents : Box} {bands : List Band} (ok : BandsOk bands)
    (around : ExtentsOf extents (boxesOf bands))
    (many : 2 ≤ (boxesOf bands).length) : Exists fun point => extents.Has point ∧ ¬ Covers (boxesOf bands) point := by
  by_contra noHole
  have filled : forall point, extents.Has point -> Covers (boxesOf bands) point := by
    intro point inside
    by_contra hole
    exact noHole ⟨point, inside, hole⟩
  have within : forall band, band ∈ bands -> forall box, box ∈ band.boxes ->
      (extents.x1 ≤ box.x1 ∧ box.x2 ≤ extents.x2) ∧ extents.y1 ≤ band.y1 ∧ band.y2 ≤ extents.y2 := by
    intro band member box inside
    have bounds := around.within box (List.mem_flatMap.mpr ⟨band, member, inside⟩)
    obtain ⟨top, bottom⟩ := (ok.each band member).same box inside
    rw [top, bottom] at bounds
    exact bounds
  -- without a hole every band is one box as wide as the extents
  have single : forall band, band ∈ bands ->
      Exists fun box => band.boxes = [box] ∧ box.x1 = extents.x1 ∧ box.x2 = extents.x2 := by
    intro band member
    have bandOk := ok.each band member
    refine row_of_filled bandOk.row bandOk.some (fun box inside => (within band member box inside).1) ?_
    intro column after before
    obtain ⟨box, inside⟩ := List.exists_mem_of_ne_nil band.boxes bandOk.some
    have rows := (within band member box inside).2
    have high := bandOk.high
    exact @rowHas_of_covers bands band (column, band.y1) ok member (le_refl _) high
      (filled (column, band.y1) ⟨⟨after, before⟩, rows.1, by show band.y1 < extents.y2; omega⟩)
  match bands, ok, around, many, filled, within, single with
  | [], _, _, many, _, _, _ => exact absurd many (by decide)
  | [band], _, _, many, _, _, single =>
      obtain ⟨box, only, _⟩ := single band List.mem_cons_self
      rw [boxesOf_cons, only] at many
      have one : ([box] ++ boxesOf []).length = 1 := rfl
      omega
  | first :: second :: rest, ok, around, many, filled, within, single =>
      obtain ⟨box1, only1, left1, right1⟩ := single first List.mem_cons_self
      obtain ⟨box2, only2, left2, right2⟩ := single second (List.mem_cons_of_mem first List.mem_cons_self)
      have below := (List.pairwise_cons.mp ok.below).1 second List.mem_cons_self
      have sameSpans : first.spans = second.spans := by
        rw [Band.spans, Band.spans, only1, only2, List.map_singleton, List.map_singleton, left1, left2, right1, right2]
      have gap : first.y2 ≠ second.y1 := fun touch => (List.isChain_cons_cons.mp ok.apart).1 touch sameSpans
      have okFirst := ok.each first List.mem_cons_self
      have okSecond := ok.each second (List.mem_cons_of_mem first List.mem_cons_self)
      have high1 := okFirst.high
      have high2 := okSecond.high
      have wide := okFirst.row.wide box1 (only1 ▸ List.mem_singleton_self box1)
      have bounds1 := (within first List.mem_cons_self box1 (only1 ▸ List.mem_singleton_self box1)).2
      have bounds2 :=
        (within second (List.mem_cons_of_mem first List.mem_cons_self) box2 (only2 ▸ List.mem_singleton_self box2)).2
      -- the row after the first band is in the extents and in no band
      have covered := filled (extents.x1, first.y2)
        ⟨⟨le_refl _, by show extents.x1 < extents.x2; omega⟩, by show extents.y1 ≤ first.y2; omega,
          by show first.y2 < extents.y2; omega⟩
      have later := (covers_rest ok (le_refl first.y2)).mp covered
      have reaches := ((covers_first ok.tail (show first.y2 < second.y2 by omega)).mp later).1
      have starts : second.y1 ≤ first.y2 := reaches
      omega

/-! ## The cases of `region_test` -/

theorem length_bands_le {bands : List Band} (ok : BandsOk bands) : bands.length ≤ (boxesOf bands).length := by
  induction bands with
  | nil => exact le_refl 0
  | cons band rest ih =>
      have some := List.length_pos_iff.mpr (ok.each band List.mem_cons_self).some
      have others := ih ok.tail
      rw [boxesOf_cons, List.length_append, List.length_cons]
      omega

theorem first_row {bands : List Band} {box : Box} {rest : List Box} (ok : BandsOk bands)
    (same : boxesOf bands = box :: rest)
    : forall band, band ∈ bands -> box.y1 ≤ band.y1 := by
  match bands, ok, same with
  | first :: others, ok, same =>
      have top := (findBand_boxesOf ok same).2.1
      have high := (ok.each first List.mem_cons_self).high
      intro band member
      rcases List.mem_cons.mp member with equal | later
      · rw [equal, top]
      · have below := (List.pairwise_cons.mp ok.below).1 band later
        omega

/-- `test_generic` finds what the points of two regions show. -/
theorem testGeneric_iff {reg1 reg2 : QRegion} (some1 : reg1.notEmpty = true) (some2 : reg2.notEmpty = true)
    {query : Flags}
    {flag : Flag} (requested : query flag = true) : testGeneric reg1 reg2 query flag = true <->
        Exists fun point => Shows (fun point => point ∈ reg1.points) (fun point => point ∈ reg2.points) flag point := by
  obtain ⟨bands1, ok1, same1, nonempty1, _⟩ := reg1.banded some1
  obtain ⟨bands2, ok2, same2, nonempty2, _⟩ := reg2.banded some2
  have length1 := length_bands_le ok1
  have length2 := length_bands_le ok2
  have has1 : boxesOf bands1 ≠ [] :=
    fun none => nonempty1 (List.length_eq_zero_iff.mp (by rw [none] at length1; exact Nat.le_zero.mp length1))
  have has2 : boxesOf bands2 ≠ [] :=
    fun none => nonempty2 (List.length_eq_zero_iff.mp (by rw [none] at length2; exact Nat.le_zero.mp length2))
  obtain ⟨r1, rest1, list1⟩ := List.exists_cons_of_ne_nil has1
  obtain ⟨r2, rest2, list2⟩ := List.exists_cons_of_ne_nil has2
  have starts1 := first_row ok1 list1
  have starts2 := first_row ok2 list2
  have bands : BandsAt (min r1.y1 r2.y1) bands1 bands2 := by
    refine ⟨ok1, ok2, ?_, ?_, Or.inl ?_⟩
    · intro band member
      have starts := starts1 band member
      have high := (ok1.each band member).high
      omega
    · intro band member
      have starts := starts2 band member
      have high := (ok2.each band member).high
      omega
    · intro band member
      have starts := starts1 band member
      omega
  unfold testGeneric
  rw [same1, same2, list1, list2]
  dsimp only
  rw [<- list1, <- list2, testGenericLoop_iff requested _ Flags.none bands1 bands2 _ (by omega) bands]
  have here : forall point, Shows (fun point => point ∈ reg1.points) (fun point => point ∈ reg2.points) flag point <->
      Shows (Covers (boxesOf bands1)) (Covers (boxesOf bands2)) flag point := by
    intro point
    refine Shows.congr ?_ ?_
    · rw [QRegion.mem_points, same1]
    · rw [QRegion.mem_points, same2]
  constructor
  · rintro (earlier | ⟨point, _, shown⟩)
    · cases earlier
    · exact ⟨point, (here point).mpr shown⟩
  · rintro ⟨point, shown⟩
    have covered := (here point).mp shown
    refine Or.inr ⟨point, ?_, covered⟩
    -- above the first row there is nothing
    by_contra outside
    have lacks1 : ¬ Covers (boxesOf bands1) point := by
      apply not_covers_above ok1.each
      intro band member
      have starts := starts1 band member
      omega
    have lacks2 : ¬ Covers (boxesOf bands2) point := by
      apply not_covers_above ok2.each
      intro band member
      have starts := starts2 band member
      omega
    exact not_shows lacks1 lacks2 covered

/-- The loop sets only flags that are asked for. -/
theorem testGenericLoop_requested (query : Flags) (flag : Flag)
    : forall (fuel : Nat) (row : Int) (res : Flags) (r1 r2 : List Box),
        testGenericLoop query fuel row res r1 r2 flag = true -> query flag = true := by
  intro fuel
  induction fuel with
  | zero => exact fun row res r1 r2 found => ((Flags.and_iff _ query flag).mp found).2
  | succ fuel ih =>
      intro row res r1 r2 found
      match r1, r2 with
      | [], r2 => exact ((Flags.and_iff _ query flag).mp found).2
      | b1 :: t1, [] => exact ((Flags.and_iff _ query flag).mp found).2
      | b1 :: t1, b2 :: t2 =>
          rw [testGenericLoop] at found
          dsimp only at found
          generalize (if b1.y1 < b2.y1 then b2.y1 else b1.y1) = ytop at found
          generalize (if min b1.y2 b2.y2 > ytop
            then testBand query (res.setSome (aloneAbove row b1 b2)) (findBand b1 t1).1 (findBand b2 t2).1
            else res.setSome (aloneAbove row b1 b2)) = resBand at found
          split at found
          · exact ((Flags.and_iff _ query flag).mp found).2
          · split at found
            · exact ((Flags.and_iff _ query flag).mp found).2
            · exact ih _ _ _ _ found

theorem testGeneric_requested (reg1 reg2 : QRegion) (query : Flags) (flag : Flag)
    (found : testGeneric reg1 reg2 query flag = true) : query flag = true := by
  unfold testGeneric at found
  generalize reg1.rectangles = rects1, reg2.rectangles = rects2 at found
  match rects1, rects2 with
  | [], _ => cases found
  | _ :: _, [] => cases found
  | r1 :: rest1, r2 :: rest2 => exact testGenericLoop_requested query flag _ _ _ _ _ found

/-- The test of a region inside of a rectangle. -/
theorem around_iff {inner outer : QRegion} (someInner : inner.notEmpty = true) (notSingle : inner.data ≠ none)
    (single : outer.data = none) (within : subsumes outer.extents inner.extents = true)
    : (Exists fun point => point ∈ inner.points ∧ point ∈ outer.points) ∧
      (Exists fun point => point ∈ outer.points ∧ ¬ point ∈ inner.points) ∧
      (forall point, point ∈ inner.points -> point ∈ outer.points) := by
  have contained : forall point, point ∈ inner.points -> point ∈ outer.points := fun point has =>
    (QRegion.points_rectangle single point).mpr (has_of_subsumes within (inner.points_within has))
  obtain ⟨shared, has⟩ := (inner.notEmpty_iff).mp someInner
  refine ⟨⟨shared, has, contained shared has⟩, ?_, contained⟩
  obtain ⟨extents, data, canonical⟩ := inner
  cases data with
  | none => exact absurd rfl notSingle
  | some rects =>
      rcases canonical with rfl | ⟨many, around, bands, ok, same⟩
      · cases someInner
      · obtain ⟨hole, inside, open_⟩ := exists_hole ok (same ▸ around) (same ▸ many)
        refine ⟨hole, (QRegion.points_rectangle single hole).mpr (has_of_subsumes within inside), ?_⟩
        intro member
        rw [QRegion.mem_points] at member
        exact open_ (same ▸ member)

/-- The test of regions that do not meet. -/
theorem apart_iff {reg1 reg2 : QRegion} (apart : ¬ Exists fun point => point ∈ reg1.points ∧ point ∈ reg2.points)
    (flag : Flag)
    : (Flags.none.setIf reg1.notEmpty .leftExclusive).setIf reg2.notEmpty .rightExclusive flag = true <->
        Exists fun point => Shows (fun point => point ∈ reg1.points) (fun point => point ∈ reg2.points) flag point := by
  rw [Flags.setIf_iff, Flags.setIf_iff, QRegion.notEmpty_iff, QRegion.notEmpty_iff]
  constructor
  · rintro (⟨⟨point, has⟩, rfl⟩ | ⟨⟨point, has⟩, rfl⟩ | earlier)
    · exact ⟨point, has, fun other => apart ⟨point, other, has⟩⟩
    · exact ⟨point, has, fun other => apart ⟨point, has, other⟩⟩
    · cases earlier
  · rintro ⟨point, shown⟩
    cases flag with
    | leftExclusive => exact Or.inr (Or.inl ⟨⟨point, shown.1⟩, rfl⟩)
    | rightExclusive => exact Or.inl ⟨⟨point, shown.1⟩, rfl⟩
    | shared => exact absurd ⟨point, shown⟩ apart

/-- The test of two rectangles. -/
theorem rectangles_iff {reg1 reg2 : QRegion} (single1 : reg1.data = none) (single2 : reg2.data = none)
    (meet : extentCheck reg1.extents reg2.extents = true) (flag : Flag)
    : ((Flags.none.set .shared).setIf (!subsumes reg1.extents reg2.extents) .rightExclusive).setIf
          (!subsumes reg2.extents reg1.extents) .leftExclusive flag = true <->
        Exists fun point => Shows (fun point => point ∈ reg1.points) (fun point => point ∈ reg2.points) flag point := by
  have canonical1 : Canonical reg1.extents none := single1 ▸ reg1.canonical
  have canonical2 : Canonical reg2.extents none := single2 ▸ reg2.canonical
  have points1 := QRegion.points_rectangle single1
  have points2 := QRegion.points_rectangle single2
  rw [Flags.setIf_iff, Flags.setIf_iff, Flags.set_iff, Bool.not_eq_true', Bool.not_eq_true']
  constructor
  · rintro (⟨outside, rfl⟩ | ⟨outside, rfl⟩ | rfl | earlier)
    · obtain ⟨point, has, lacks⟩ := exists_outside canonical1.1 canonical1.2 (ne_true_of_eq_false outside)
      exact ⟨point, (points1 point).mpr has, fun other => lacks ((points2 point).mp other)⟩
    · obtain ⟨point, has, lacks⟩ := exists_outside canonical2.1 canonical2.2 (ne_true_of_eq_false outside)
      exact ⟨point, (points2 point).mpr has, fun other => lacks ((points1 point).mp other)⟩
    · obtain ⟨point, has1, has2⟩ := shared_of_extentCheck canonical1.1 canonical1.2 canonical2.1 canonical2.2 meet
      exact ⟨point, (points1 point).mpr has1, (points2 point).mpr has2⟩
    · cases earlier
  · rintro ⟨point, shown⟩
    cases flag with
    | leftExclusive =>
        have outside : ¬ subsumes reg2.extents reg1.extents = true := fun within =>
          shown.2 ((points2 point).mpr (has_of_subsumes within ((points1 point).mp shown.1)))
        exact Or.inl ⟨eq_false_of_ne_true outside, rfl⟩
    | rightExclusive =>
        have outside : ¬ subsumes reg1.extents reg2.extents = true := fun within =>
          shown.2 ((points1 point).mpr (has_of_subsumes within ((points2 point).mp shown.1)))
        exact Or.inr (Or.inl ⟨eq_false_of_ne_true outside, rfl⟩)
    | shared => exact Or.inr (Or.inr (Or.inl rfl))

/-- `region_test` returns the flags that are asked for and that a point shows. -/
theorem regionTestFlags_iff (reg1 : QRegion) (other : Option QRegion) (query : Flags) (flag : Flag)
    : regionTestFlags reg1 other query flag = true <-> query flag = true ∧ Exists fun point =>
        Shows (fun point => point ∈ reg1.points) (fun point => point ∈ (other.getD reg1).points) flag point := by
  have object : other.isNone = true -> other.getD reg1 = reg1 := by
    intro same
    rw [Option.isNone_iff_eq_none.mp same, Option.getD_none]
  unfold regionTestFlags
  generalize other.getD reg1 = reg2 at object ⊢
  by_cases apart : (!reg1.notEmpty || !reg2.notEmpty || !extentCheck reg1.extents reg2.extents) = true
  · rw [if_pos apart, Flags.and_iff, and_comm, apart_iff]
    rintro ⟨point, has1, has2⟩
    rw [Bool.or_eq_true, Bool.or_eq_true, Bool.not_eq_true', Bool.not_eq_true', Bool.not_eq_true'] at apart
    rcases apart with (none1 | none2) | disjoint
    · exact absurd ((reg1.notEmpty_iff).mpr ⟨point, has1⟩) (ne_true_of_eq_false none1)
    · exact absurd ((reg2.notEmpty_iff).mpr ⟨point, has2⟩) (ne_true_of_eq_false none2)
    · exact absurd (extentCheck_of_shared (reg1.points_within has1) (reg2.points_within has2))
        (ne_true_of_eq_false disjoint)
  rw [if_neg apart]
  rw [Bool.or_eq_true, Bool.or_eq_true, Bool.not_eq_true', Bool.not_eq_true', Bool.not_eq_true', not_or, not_or,
    Bool.not_eq_false, Bool.not_eq_false, Bool.not_eq_false] at apart
  obtain ⟨⟨some1, some2⟩, meet⟩ := apart
  by_cases both : (reg1.data.isNone && reg2.data.isNone) = true
  · rw [if_pos both, Flags.and_iff, and_comm]
    rw [Bool.and_eq_true, Option.isNone_iff_eq_none, Option.isNone_iff_eq_none] at both
    rw [rectangles_iff both.1 both.2 meet]
  rw [if_neg both]
  rw [Bool.and_eq_true, Option.isNone_iff_eq_none, Option.isNone_iff_eq_none] at both
  by_cases second : (reg2.data.isNone && subsumes reg2.extents reg1.extents) = true
  · rw [if_pos second, Flags.and_iff, and_comm, Flags.set_iff, Flags.set_iff]
    rw [Bool.and_eq_true, Option.isNone_iff_eq_none] at second
    obtain ⟨⟨point, has1, has2⟩, ⟨hole, inside, lacks⟩, contained⟩ :=
      around_iff some1 (fun single => both ⟨single, second.1⟩) second.1 second.2
    refine and_congr Iff.rfl ?_
    cases flag with
    | leftExclusive =>
        refine ⟨fun found => ?_, fun ⟨other, has, outside⟩ => absurd (contained other has) outside⟩
        rcases found with found | found | found <;> cases found
    | rightExclusive => exact ⟨fun _ => ⟨hole, inside, lacks⟩, fun _ => Or.inl rfl⟩
    | shared => exact ⟨fun _ => ⟨point, has1, has2⟩, fun _ => Or.inr (Or.inl rfl)⟩
  rw [if_neg second]
  by_cases first : (reg1.data.isNone && subsumes reg1.extents reg2.extents) = true
  · rw [if_pos first, Flags.and_iff, and_comm, Flags.set_iff, Flags.set_iff]
    rw [Bool.and_eq_true, Option.isNone_iff_eq_none] at first
    obtain ⟨⟨point, has2, has1⟩, ⟨hole, inside, lacks⟩, contained⟩ :=
      around_iff some2 (fun single => both ⟨first.1, single⟩) first.1 first.2
    refine and_congr Iff.rfl ?_
    cases flag with
    | leftExclusive => exact ⟨fun _ => ⟨hole, inside, lacks⟩, fun _ => Or.inl rfl⟩
    | rightExclusive =>
        refine ⟨fun found => ?_, fun ⟨other, has, outside⟩ => absurd (contained other has) outside⟩
        rcases found with found | found | found <;> cases found
    | shared => exact ⟨fun _ => ⟨point, has1, has2⟩, fun _ => Or.inr (Or.inl rfl)⟩
  rw [if_neg first]
  by_cases same : other.isNone = true
  · rw [if_pos same, Flags.and_iff, and_comm, Flags.set_iff, object same]
    refine and_congr Iff.rfl ?_
    obtain ⟨point, has⟩ := (reg1.notEmpty_iff).mp some1
    cases flag with
    | leftExclusive =>
        refine ⟨fun found => ?_, fun ⟨other, has, outside⟩ => absurd has outside⟩
        rcases found with found | found <;> cases found
    | rightExclusive =>
        refine ⟨fun found => ?_, fun ⟨other, has, outside⟩ => absurd has outside⟩
        rcases found with found | found <;> cases found
    | shared => exact ⟨fun _ => ⟨point, has, has⟩, fun _ => Or.inl rfl⟩
  · rw [if_neg same]
    constructor
    · intro found
      have requested := testGeneric_requested reg1 reg2 query flag found
      exact ⟨requested, (testGeneric_iff some1 some2 requested).mp found⟩
    · rintro ⟨requested, shown⟩
      exact (testGeneric_iff some1 some2 requested).mpr shown

/-! ## Masks -/

theorem toMask_bit (flags : Flags) (flag : Flag) : flags.toMask &&& flag.bit ≠ 0 <-> flags flag = true := by
  unfold Flags.toMask
  cases flag with
  | leftExclusive =>
      generalize flags .leftExclusive = left, flags .rightExclusive = right, flags .shared = shared
      revert left right shared
      decide
  | rightExclusive =>
      generalize flags .leftExclusive = left, flags .rightExclusive = right, flags .shared = shared
      revert left right shared
      decide
  | shared =>
      generalize flags .leftExclusive = left, flags .rightExclusive = right, flags .shared = shared
      revert left right shared
      decide

theorem ofMask_query (mask : UInt32) : Flags.ofMask (if mask ≠ 0 then mask &&& regionTestAll else regionTestAll) =
        Flags.ofMask (if mask = 0 then regionTestAll else mask) := by
  funext flag
  have all : regionTestAll &&& flag.bit = flag.bit := by
    cases flag <;> decide
  unfold Flags.ofMask
  by_cases zero : mask = 0
  · rw [if_neg (fun other => other zero), if_pos zero]
  · rw [if_pos zero, if_neg zero, UInt32.and_assoc, all]

theorem ofMask_iff (mask : UInt32) (flag : Flag) : Flags.ofMask mask flag = true <-> mask &&& flag.bit ≠ 0 :=
  decide_eq_true_iff

theorem slowRegionTestFlags_iff (first second : Set (Int × Int)) (query : Flags) (flag : Flag)
    : slowRegionTestFlags first second query flag = true <-> query flag = true ∧ Exists fun point =>
        Shows (fun point => point ∈ first) (fun point => point ∈ second) flag point := by
  cases flag with
  | leftExclusive =>
      rw [slowRegionTestFlags, Bool.and_eq_true, decide_eq_true_iff, Ne, Set.inter_eq_left, Set.not_subset]
      rfl
  | rightExclusive =>
      rw [slowRegionTestFlags, Bool.and_eq_true, decide_eq_true_iff, Ne, Set.inter_eq_right, Set.not_subset]
      rfl
  | shared =>
      rw [slowRegionTestFlags, Bool.and_eq_true]
      exact and_congr Iff.rfl (@decide_eq_true_iff _ (Classical.propDecidable _))

/-- For any two regions and any mask, `region_test` returns the bits that are asked for and that
the points of the regions show, as `slow_region_test` does.  A mask of zero asks for all bits. -/
theorem regionTest_exact (reg1 : QRegion) (other : Option QRegion) (mask : UInt32) : regionTest reg1 other mask =
          slowRegionTest reg1.points (other.getD reg1).points (if mask = 0 then regionTestAll else mask) ∧
        forall flag : Flag, regionTest reg1 other mask &&& flag.bit ≠ 0 <->
          (if mask = 0 then regionTestAll else mask) &&& flag.bit ≠ 0 ∧ Exists fun point =>
            Shows (fun point => point ∈ reg1.points) (fun point => point ∈ (other.getD reg1).points) flag point := by
  unfold regionTest slowRegionTest
  rw [ofMask_query]
  constructor
  · have sameFlags : regionTestFlags reg1 other (Flags.ofMask (if mask = 0 then regionTestAll else mask)) =
        slowRegionTestFlags reg1.points (other.getD reg1).points
          (Flags.ofMask (if mask = 0 then regionTestAll else mask)) := by
      funext flag
      rw [Bool.eq_iff_iff, regionTestFlags_iff, slowRegionTestFlags_iff]
    rw [sameFlags]
  · intro flag
    rw [toMask_bit, regionTestFlags_iff, ofMask_iff]

def pixelRegion : QRegion := ⟨⟨0, 0, 1, 1⟩, none, by decide, by decide⟩

def emptyRegion : QRegion := ⟨⟨0, 0, 0, 0⟩, some [], Or.inl rfl⟩

/-- A mask that asks for nothing gets an answer. -/
theorem zeroMask_answered : ¬ forall (reg1 : QRegion) (other : Option QRegion) (mask : UInt32),
    regionTest reg1 other mask = slowRegionTest reg1.points (other.getD reg1).points mask ∧
      forall flag : Flag, regionTest reg1 other mask &&& flag.bit ≠ 0 <-> mask &&& flag.bit ≠ 0 ∧ Exists fun point =>
        Shows (fun point => point ∈ reg1.points) (fun point => point ∈ (other.getD reg1).points) flag point := by
  intro exact
  have answered : regionTest pixelRegion (some emptyRegion) 0 &&& Flag.leftExclusive.bit ≠ 0 := by
    decide
  have requested := (((exact pixelRegion (some emptyRegion) 0).2 Flag.leftExclusive).mp answered).1
  exact absurd requested (by decide)

end Region
end Spice
