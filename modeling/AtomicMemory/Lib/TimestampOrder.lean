import AtomicMemory.Lib.DateTime
import Mathlib.Data.List.Forall2
import Mathlib.Data.String.Basic

-- Numbers written in fixed widths between fixed separators are ordered as their texts are, and
-- the millisecond text of a UTC datetime is of this kind: it sorts by time.

namespace Calendar

theorem digitChar_lt : ∀ i < 10, ∀ j < 10, i < j → i.digitChar < j.digitChar := by
  decide

theorem pad_append_lt {k a b : ℕ} (hab : a < b) (hb : b < 10 ^ k) (s t : List Char) :
    pad k a ++ s < pad k b ++ t := by
  induction k generalizing a b s t with
  | zero => omega
  | succ k ih =>
    rw [pad, pad, List.append_assoc, List.append_assoc]
    rcases Nat.lt_or_ge (a / 10) (b / 10) with hlt | hge
    · rw [Nat.pow_succ] at hb
      exact ih hlt (by omega) _ _
    · -- the numbers differ in the last digit only
      have heq : a / 10 = b / 10 := by omega
      rw [heq]
      apply List.append_left_lt
      rw [List.singleton_append, List.singleton_append, List.cons_lt_cons_iff]
      exact .inl (digitChar_lt _ (by omega) _ (by omega) (by omega))

def render : List (ℕ × List Char) → List ℕ → List Char
  | (width, separator) :: layout, n :: ns => pad width n ++ (separator ++ render layout ns)
  | _, _ => []

def Fits (layout : List (ℕ × List Char)) (ns : List ℕ) : Prop :=
  List.Forall₂ (fun field n => n < 10 ^ field.1) layout ns

theorem render_lt {layout : List (ℕ × List Char)} {ns ms : List ℕ} (hns : Fits layout ns)
    (hms : Fits layout ms) (h : ns < ms) : render layout ns < render layout ms := by
  induction hns generalizing ms with
  | nil =>
    cases hms
    exact absurd h (lt_irrefl _)
  | cons _ hns ih =>
    cases hms with
    | cons hm hms =>
      rw [List.cons_lt_cons_iff] at h
      rcases h with h | ⟨rfl, h⟩
      · exact pad_append_lt h hm _ _
      · exact List.append_left_lt (List.append_left_lt (ih hms h))

theorem render_le {layout : List (ℕ × List Char)} {ns ms : List ℕ} (hns : Fits layout ns)
    (hms : Fits layout ms) (h : ns ≤ ms) : render layout ns ≤ render layout ms := by
  rcases h.eq_or_lt with rfl | h
  · exact le_rfl
  · exact (render_lt hns hms h).le

theorem lt_of_append_lt {l l' m m' : List ℕ} (hlength : l.length = l'.length)
    (h : l ++ m < l' ++ m') : l < l' ∨ l = l' ∧ m < m' := by
  induction l generalizing l' with
  | nil =>
    cases l' with
    | nil => exact .inr ⟨rfl, h⟩
    | cons b l' => cases hlength
  | cons a l ih =>
    cases l' with
    | nil => cases hlength
    | cons b l' =>
      rw [List.cons_append, List.cons_append, List.cons_lt_cons_iff] at h
      rw [List.cons_lt_cons_iff]
      obtain hhead | ⟨rfl, htail⟩ := h
      · exact .inl (.inl hhead)
      · obtain hlt | ⟨rfl, hrest⟩ := ih (Nat.succ.inj hlength) htail
        · exact .inl (.inr ⟨rfl, hlt⟩)
        · exact .inr ⟨rfl, hrest⟩

theorem daysBeforeMonth_lt : ∀ leap : Bool, ∀ m' ≤ 12, ∀ m < m', 1 ≤ m →
    daysBeforeMonth leap m + daysInMonth leap m ≤ daysBeforeMonth leap m' := by
  decide

def Date.fields (d : Date) : List ℕ := [d.year, d.month, d.day]

@[simp] theorem Date.length_fields (d : Date) : d.fields.length = 3 := rfl

theorem list_lt_cons {a b : ℕ} {l l' : List ℕ} : a :: l < b :: l' ↔ a < b ∨ a = b ∧ l < l' :=
  List.cons_lt_cons_iff

theorem Date.dayNumber_lt_of_fields {d d' : Date} (h : d.fields < d'.fields) :
    d.dayNumber < d'.dayNumber := by
  rw [Date.fields, Date.fields, list_lt_cons, list_lt_cons, list_lt_cons] at h
  obtain hyear | ⟨hyear, hmonth | ⟨hmonth, hday | ⟨-, hnil⟩⟩⟩ := h
  · have hle := daysBeforeYear_le (show d.year + 1 ≤ d'.year from hyear)
    have hlt := d.dayNumber_lt_year
    rw [show d'.dayNumber = daysBeforeYear d'.year + daysBeforeMonth (isLeap d'.year) d'.month +
      (d'.day - 1) from rfl]
    omega
  · have hle := daysBeforeMonth_lt (isLeap d.year) d'.month d'.month_le d.month hmonth d.month_pos
    have hday := d.day_le
    have hpos := d.day_pos
    unfold Date.dayNumber
    rw [← hyear]
    omega
  · have hpos := d.day_pos
    unfold Date.dayNumber
    rw [← hyear, ← hmonth]
    omega
  · exact absurd hnil (lt_irrefl _)

namespace DateTime

def timeFields (d : DateTime) : List ℕ := [d.hour, d.minute, d.second, d.microsecond / 1000]

def millisLayout : List (ℕ × List Char) :=
  [(4, ['-']), (2, ['-']), (2, ['T']), (2, [':']), (2, [':']), (2, ['.']), (3, ['Z'])]

theorem render_fields (d : DateTime) :
    render millisLayout (d.date.fields ++ d.timeFields) = d.millisText ++ ['Z'] := by
  simp [render, millisLayout, Date.fields, timeFields, millisText]

theorem fits_fields (d : DateTime) : Fits millisLayout (d.date.fields ++ d.timeFields) := by
  have hyear := d.date.year_le
  have hmonth := d.date.month_le
  have hday := d.date.day_le_31
  have hhour := d.hour_lt
  have hminute := d.minute_lt
  have hsecond := d.second_lt
  have hmillis : d.microsecond / 1000 < 1000 := Nat.div_lt_of_lt_mul d.microsecond_lt
  simp only [Fits, millisLayout, Date.fields, timeFields, List.cons_append, List.nil_append,
    List.forall₂_cons, List.Forall₂.nil, and_true]
  omega

theorem timeTicks_lt_of_fields {d d' : DateTime} (h : d.timeFields < d'.timeFields) :
    timeTicks d.hour d.minute d.second (d.microsecond / 1000 * 1000) <
      timeTicks d'.hour d'.minute d'.second (d'.microsecond / 1000 * 1000) := by
  rw [timeFields, timeFields, list_lt_cons, list_lt_cons, list_lt_cons, list_lt_cons] at h
  have hminute := d.minute_lt
  have hsecond := d.second_lt
  have hmicro := d.microsecond_lt
  unfold timeTicks
  obtain hhour | ⟨hhour, hmin | ⟨hmin, hsec | ⟨hsec, hmillis | ⟨-, hnil⟩⟩⟩⟩ := h
  · omega
  · omega
  · omega
  · omega
  · exact absurd hnil (lt_irrefl _)

theorem ticks_lt_of_fields {d d' : DateTime}
    (h : d.date.fields ++ d.timeFields < d'.date.fields ++ d'.timeFields) :
    d.ticks / 1000 < d'.ticks / 1000 := by
  have hfloor := timeTicks_floor d
  have hfloor' := timeTicks_floor d'
  have hday := dayNumber_date d
  have hday' := dayNumber_date d'
  unfold dayTicks at hfloor hfloor' hday hday'
  have hlength : d.date.fields.length = d'.date.fields.length := by simp
  rcases lt_of_append_lt hlength h with hdate | ⟨hdate, htime⟩
  · have hlt := Date.dayNumber_lt_of_fields hdate
    omega
  · have htime := timeTicks_lt_of_fields htime
    have heq : d.date.dayNumber = d'.date.dayNumber := by
      simp only [Date.fields, List.cons.injEq, and_true] at hdate
      unfold Date.dayNumber
      rw [hdate.1, hdate.2.1, hdate.2.2]
    omega

theorem millisText_le {d d' : DateTime} (h : d.ticks ≤ d'.ticks) :
    d.millisText ++ ['Z'] ≤ d'.millisText ++ ['Z'] := by
  rw [← render_fields, ← render_fields]
  refine render_le (fits_fields d) (fits_fields d') ?_
  by_contra hlt
  have hticks := ticks_lt_of_fields (not_le.mp hlt)
  omega

theorem zText_le {d d' : DateTime} (hd : d.InRange) (hd' : d'.InRange)
    (h : d.instant ≤ d'.instant) : d.zText ≤ d'.zText := by
  rw [zText, zText, dif_pos hd, dif_pos hd', String.le_iff_toList_le, String.toList_ofList,
    String.toList_ofList]
  exact millisText_le (Int.toNat_le_toNat h)

theorem instant_lt_of_zText {d d' : DateTime} (hd : d.InRange) (hd' : d'.InRange)
    (h : d.zText = d'.zText) : (d.instant - d'.instant).natAbs < 1000 := by
  have hfloor : d.floored = d'.floored := by
    rw [← Option.some.injEq, ← parseRfc3339_zText hd, ← parseRfc3339_zText hd', h]
  rw [floored, floored, dif_pos hd, dif_pos hd'] at hfloor
  have hticks : d.instant.toNat / 1000 * 1000 = d'.instant.toNat / 1000 * 1000 :=
    congrArg ticks hfloor
  have hpos := hd.1
  have hpos' := hd'.1
  omega

/-- The characters are those of the pattern, with any decimal digits for its zeros. -/
def Matches (pattern s : List Char) : Prop :=
  List.Forall₂ (fun p c => if p = '0' then c.isDigit = true else c = p) pattern s

theorem matches_pad (k n : ℕ) {pattern s : List Char} (h : Matches pattern s) :
    Matches (List.replicate k '0' ++ pattern) (pad k n ++ s) := by
  have hdigits : Matches (List.replicate k '0') (pad k n) := by
    rw [Matches, List.forall₂_iff_get]
    refine ⟨by rw [List.length_replicate, pad_length], fun i hi hi' => ?_⟩
    rw [List.get_eq_getElem, List.getElem_replicate, if_pos rfl]
    exact pad_isDigit k n _ (List.getElem_mem _)
  exact List.rel_append hdigits h

theorem matches_millisText (d : DateTime) :
    Matches "0000-00-00T00:00:00.000Z".toList (d.millisText ++ ['Z']) := by
  have hsep {c : Char} (hc : c ≠ '0') {pattern s : List Char} (h : Matches pattern s) :
      Matches (c :: pattern) (c :: s) := .cons (by rw [if_neg hc]) h
  rw [← render_fields]
  apply matches_pad 4 _ (hsep (by decide) _)
  apply matches_pad 2 _ (hsep (by decide) _)
  apply matches_pad 2 _ (hsep (by decide) _)
  apply matches_pad 2 _ (hsep (by decide) _)
  apply matches_pad 2 _ (hsep (by decide) _)
  apply matches_pad 2 _ (hsep (by decide) _)
  exact matches_pad 3 _ (hsep (by decide) .nil)

end DateTime

end Calendar
