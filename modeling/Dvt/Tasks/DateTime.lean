import Dvt.Library.FixedWidth
import Mathlib.Data.String.Basic

/-! UTC datetimes, their order, and the text `isoformat` gives them. -/

namespace Dvt.Tasks

open Library List

structure DateTime where
  year : ℕ
  month : ℕ
  day : ℕ
  hour : ℕ
  minute : ℕ
  second : ℕ
  microsecond : ℕ
  inRange : (1 ≤ year ∧ year < 10000) ∧ (1 ≤ month ∧ month ≤ 12) ∧ (1 ≤ day ∧ day ≤ 31) ∧
    hour < 24 ∧ minute < 60 ∧ second < 60 ∧ microsecond < 1000000 := by decide
  deriving DecidableEq, Repr

namespace DateTime

def ticks (d : DateTime) : ℕ :=
  d.year * 35942400000000 + (d.month * 2764800000000 + (d.day * 86400000000 +
    (d.hour * 3600000000 + (d.minute * 60000000 + (d.second * 1000000 + d.microsecond)))))

lemma ticks_injective : Function.Injective ticks := by
  rintro ⟨y, mo, d, h, mi, s, us, hr⟩ ⟨y', mo', d', h', mi', s', us', hr'⟩ he
  simp only [ticks] at he
  simp only [mk.injEq]
  omega

instance : LinearOrder DateTime := LinearOrder.lift' ticks ticks_injective

lemma lt_def (a b : DateTime) : a < b ↔ a.ticks < b.ticks := Iff.rfl

def fraction (microsecond : ℕ) : List Char :=
  if microsecond = 0 then "+00:00".toList else '.' :: (decimal 6 microsecond ++ "+00:00".toList)

def isoformat (d : DateTime) : String :=
  String.ofList (decimal 4 d.year ++ '-' :: (decimal 2 d.month ++ '-' :: (decimal 2 d.day ++ 'T' ::
    (decimal 2 d.hour ++ ':' :: (decimal 2 d.minute ++ ':' ::
      (decimal 2 d.second ++ fraction d.microsecond))))))

lemma fraction_lt {m n : ℕ} (hm : m < 1000000) (hn : n < 1000000) :
    fraction m < fraction n ↔ m < n := by
  have hd := decimal_append_lt 6 (by simpa using hm) (by simpa using hn) "+00:00".toList "+00:00".toList
  simp only [fraction]
  split_ifs with h₁ h₂ h₂
  · simp [h₂]
  · have hc : "+00:00".toList < '.' :: (decimal 6 n ++ "+00:00".toList) := by
      simp [cons_lt_cons_iff]
    simp only [hc, true_iff]
    omega
  · have hc : ¬ '.' :: (decimal 6 m ++ "+00:00".toList) < "+00:00".toList := by
      simp [cons_lt_cons_iff]
    simp only [hc, false_iff]
    omega
  · simpa [cons_lt_cons_iff] using hd

lemma decimal_cons_lt (width : ℕ) {m n : ℕ} (hm : m < 10 ^ width) (hn : n < 10 ^ width) (c : Char)
    (xs ys : List Char) : decimal width m ++ c :: xs < decimal width n ++ c :: ys ↔
      m < n ∨ m = n ∧ xs < ys := by
  simp [decimal_append_lt width hm hn]

lemma isoformat_lt (a b : DateTime) : a.isoformat < b.isoformat ↔ a < b := by
  obtain ⟨⟨_, hy⟩, ⟨_, hmo⟩, ⟨_, hd⟩, hh, hmi, hs, hus⟩ := a.inRange
  obtain ⟨⟨_, hy'⟩, ⟨_, hmo'⟩, ⟨_, hd'⟩, hh', hmi', hs', hus'⟩ := b.inRange
  rw [String.lt_iff_toList_lt, isoformat, isoformat, String.toList_ofList, String.toList_ofList,
    decimal_cons_lt 4 (by omega) (by omega), decimal_cons_lt 2 (by omega) (by omega),
    decimal_cons_lt 2 (by omega) (by omega), decimal_cons_lt 2 (by omega) (by omega),
    decimal_cons_lt 2 (by omega) (by omega), decimal_append_lt 2 (by omega) (by omega),
    fraction_lt hus hus', lt_def, ticks, ticks]
  rw [radix_lt (by omega) (by omega), radix_lt (by omega) (by omega), radix_lt (by omega) (by omega),
    radix_lt (by omega) (by omega), radix_lt (by omega) (by omega), radix_lt hus hus']

lemma isoformat_inj (a b : DateTime) : a.isoformat = b.isoformat ↔ a = b := by
  constructor
  · intro h
    rcases lt_trichotomy a b with hlt | heq | hgt
    · exact absurd h ((isoformat_lt a b).mpr hlt).ne
    · exact heq
    · exact absurd h ((isoformat_lt b a).mpr hgt).ne'
  · rintro rfl
    rfl

end DateTime

def sampleTime : DateTime where
  year := 2024
  month := 1
  day := 1
  hour := 12
  minute := 0
  second := 0
  microsecond := 0

end Dvt.Tasks
