import Enclave.Proofs.Saving

namespace Enclave

def nearestOffset (n : Int) : Int :=
  max leastOffset (min n greatestOffset)

namespace Checked

def addOffsets (m n : Int64) : Option Int64 :=
  if m.toBitVec.saddOverflow n.toBitVec then none else some (m + n)

theorem addOffsets_cases (m n : Int64) :
    (addOffsets m n = none ∧
      (m.toInt + n.toInt < leastOffset ∨ greatestOffset < m.toInt + n.toInt)) ∨
    (addOffsets m n = some (m + n) ∧ (m + n).toInt = m.toInt + n.toInt ∧
      leastOffset ≤ m.toInt + n.toInt ∧ m.toInt + n.toInt ≤ greatestOffset) := by
  have hover : m.toBitVec.saddOverflow n.toBitVec = true ↔
      m.toInt + n.toInt < leastOffset ∨ greatestOffset < m.toInt + n.toInt := by
    simp only [BitVec.saddOverflow, Int64.toInt_toBitVec, Bool.or_eq_true, decide_eq_true_eq,
      leastOffset, greatestOffset]
    omega
  by_cases h : m.toBitVec.saddOverflow n.toBitVec
  · exact .inl ⟨if_pos h, hover.mp h⟩
  · have hsum := BitVec.toInt_add_of_not_saddOverflow h
    have hrange := not_or.mp (mt hover.mpr h)
    refine .inr ⟨if_neg h, hsum, ?_, ?_⟩
    · exact Int.not_lt.mp hrange.1
    · exact Int.not_lt.mp hrange.2

end Checked

theorem toInt_toInt64 {n : Nat} (h : n ≤ greatestOffset) : (UInt64.ofNat n).toInt64.toInt = n := by
  have hsmall : n < 2 ^ 63 := by
    simp only [greatestOffset] at h
    omega
  have hnat : (UInt64.ofNat n).toBitVec.toNat = n := Nat.mod_eq_of_lt (by omega)
  have hint : (UInt64.ofNat n).toInt64.toInt = (UInt64.ofNat n).toBitVec.toInt := rfl
  rw [hint, BitVec.toInt_eq_toNat_of_lt (by omega), hnat]

theorem toNat_toUInt64 {n : Int64} (h : 0 ≤ n.toInt) : n.toUInt64.toNat = n.toInt.toNat := by
  have hlt := n.toBitVec.isLt
  change 0 ≤ n.toBitVec.toInt at h
  change n.toBitVec.toNat = n.toBitVec.toInt.toNat
  simp only [BitVec.toInt_eq_toNat_cond] at h ⊢
  split at h
  · next hsmall =>
    rw [if_pos hsmall]
    rfl
  · omega

theorem lt_toUInt64_iff {n : Nat} {target : Int64} (hn : n ≤ greatestOffset)
    (ht : 0 ≤ target.toInt) : UInt64.ofNat n < target.toUInt64 ↔ n < target.toInt := by
  have hword : (UInt64.ofNat n).toNat = n := Nat.mod_eq_of_lt (by
    simp only [greatestOffset] at hn
    omega)
  rw [UInt64.lt_iff_toNat_lt, hword, toNat_toUInt64 ht]
  omega

namespace OpenFile

def baseWord (position size : UInt64) : Origin → Int64
  | .start => 0
  | .cursor => position.toInt64
  | .finish => size.toInt64

/-- Where a seek moves a cursor, as a machine works it out: the sum of two offsets is checked, and
one that is not negative is taken for a size again. -/
def seekWords (position size : UInt64) (offset : Int64) (origin : Origin) : Except Fault UInt64 :=
  match Checked.addOffsets (baseWord position size origin) offset with
  | none =>
    .error (.invalidSeek (if offset < 0 then Int64.minValue.toInt else Int64.maxValue.toInt))
  | some target =>
    if target < 0 ∨ size < target.toUInt64 then .error (.invalidSeek target.toInt)
    else .ok target.toUInt64

variable {f : OpenFile}

theorem base_le (hp : f.position ≤ f.size) (origin : Origin) : f.base origin ≤ f.size := by
  cases origin with
  | start => exact Nat.zero_le _
  | cursor => exact hp
  | finish => exact Nat.le_refl _

theorem seek_eq (hp : f.position ≤ f.size) (hsize : f.size ≤ greatestOffset) (offset : Int64)
    (origin : Origin) :
    f.seek offset.toInt origin =
      let target := f.base origin + offset.toInt
      if 0 ≤ target ∧ target ≤ f.size then .ok (target.toNat, { f with position := target.toNat })
      else .error (.invalidSeek (nearestOffset target)) := by
  have hbase := f.base_le hp origin
  have hleast : leastOffset ≤ offset.toInt := offset.le_toInt
  have hzero : leastOffset ≤ 0 := by decide
  simp only [seek]
  generalize hsum : (f.base origin : Int) + offset.toInt = target
  by_cases hover : greatestOffset < target
  · have hforward : ¬ offset.toInt < 0 := by omega
    have hnearest : nearestOffset target = greatestOffset := by
      rw [nearestOffset]
      omega
    rw [if_pos (.inr hover), if_neg hforward, if_neg (by omega), hnearest]
  · have hnearest : nearestOffset target = target := by
      rw [nearestOffset]
      omega
    rw [if_neg (by omega), hnearest]
    by_cases hin : 0 ≤ target ∧ target ≤ f.size
    · rw [if_neg (by omega), if_pos hin]
    · rw [if_pos (by omega), if_neg hin]

theorem toInt_baseWord (hp : f.position ≤ f.size) (hsize : f.size ≤ greatestOffset)
    (origin : Origin) :
    (baseWord (.ofNat f.position) (.ofNat f.size) origin).toInt = f.base origin := by
  cases origin with
  | start => rfl
  | cursor => exact toInt_toInt64 (by omega)
  | finish => exact toInt_toInt64 hsize

theorem seekWords_eq (hp : f.position ≤ f.size) (hsize : f.size ≤ greatestOffset)
    (offset : Int64) (origin : Origin) :
    seekWords (.ofNat f.position) (.ofNat f.size) offset origin =
      (f.seek offset.toInt origin).map fun moved => UInt64.ofNat moved.1 := by
  have hbase := toInt_baseWord hp hsize origin
  rw [seekWords, seek]
  generalize baseWord (.ofNat f.position) (.ofNat f.size) origin = base at hbase ⊢
  rw [← hbase]
  obtain ⟨hnone, hover⟩ | ⟨hsome, hsum, hleast, hmost⟩ := Checked.addOffsets_cases base offset
  · -- No offset holds the sum, and the sign of what is added tells which bound it is past.
    have hnegative : offset < 0 ↔ offset.toInt < 0 := Int64.lt_iff_toInt_lt
    simp only [hnone, if_pos hover, hnegative]
    rfl
  · have hin := not_or.mpr ⟨Int.not_lt.mpr hleast, Int.not_lt.mpr hmost⟩
    rw [hsome, if_neg hin, ← hsum]
    generalize base + offset = target
    have hnegative : target < 0 ↔ target.toInt < 0 := Int64.lt_iff_toInt_lt
    by_cases hneg : target.toInt < 0
    · simp only [hnegative, if_pos (Or.inl hneg)]
      rfl
    · have hpast := lt_toUInt64_iff hsize (Int.not_lt.mp hneg)
      have hword : UInt64.ofNat target.toInt.toNat = target.toUInt64 := by
        rw [← toNat_toUInt64 (Int.not_lt.mp hneg), UInt64.ofNat_toNat]
      simp only [hnegative, hpast]
      by_cases hout : target.toInt < 0 ∨ f.size < target.toInt
      · simp only [if_pos hout]
        rfl
      · simp only [if_neg hout, Except.map, hword]

end OpenFile

namespace Volume

variable {v : Volume} {h : Handle} {file : OpenFile}

theorem seek_result (hf : v.files.find? h = some file) (offset : Int) (origin : Origin) :
    (v.seek h offset origin).result = (file.seek offset origin).map (·.1) := by
  rw [seek_of_some hf]
  cases file.seek offset origin <;> rfl

theorem seek_cases (hf : v.files.find? h = some file) (hp : file.position ≤ file.size)
    (hsize : file.size ≤ greatestOffset) (offset : Int64) (origin : Origin) :
    let target := file.base origin + offset.toInt
    let fault := Fault.invalidSeek (nearestOffset target)
    (0 ≤ target ∧ target ≤ file.size) ∧ v.seek h offset.toInt origin =
        ⟨.ok target.toNat,
          { v with files := v.files.replace h { file with position := target.toNat } }, []⟩ ∨
      ¬ (0 ≤ target ∧ target ≤ file.size) ∧
        v.seek h offset.toInt origin = ⟨.error fault, v, [.failed .seeking fault]⟩ := by
  intro target fault
  rw [seek_of_some hf, OpenFile.seek_eq hp hsize]
  by_cases hin : 0 ≤ target ∧ target ≤ file.size
  · simp only [if_pos hin, target]
    exact .inl ⟨hin, trivial⟩
  · simp only [if_neg hin, target, fault]
    exact .inr ⟨hin, trivial⟩

/-- Where a seek moves the cursor of an open file, in every reachable volume. It succeeds exactly if
its target, an integer without bounds, is within the content, and the cursor is then at the target.
Otherwise it tells the offset nearest to the target, and the cursor stays. Nothing else changes. A
machine that works the target out in words comes to the same. -/
theorem seek_exact (l : Limits) (steps : List (Allocator × Request)) {h : Handle}
    {file : OpenFile} (hf : ((ofLimits l).after steps).files.find? h = some file)
    (hsize : file.size ≤ greatestOffset) (offset : Int64) (origin : Origin) :
    let v := (ofLimits l).after steps
    let target := file.base origin + offset.toInt
    let result := (v.seek h offset.toInt origin).result
    let v' := (v.seek h offset.toInt origin).volume
    ((∃ n, result = .ok n) ↔ 0 ≤ target ∧ target ≤ file.size) ∧
    (∀ n, result = .ok n → n = target ∧ v'.files.find? h = some { file with position := n } ∧
      (v'.tell h).result = .ok n) ∧
    (∀ e, result = .error e → e = .invalidSeek (nearestOffset target) ∧ v' = v) ∧
    (v'.used = v.used ∧ v'.archive = v.archive ∧ v'.opened = v.opened ∧
      (∀ g, g ≠ h → v'.files.find? g = v.files.find? g) ∧
      ∃ position, v'.files.find? h = some { file with position }) ∧
    OpenFile.seekWords (.ofNat file.position) (.ofNat file.size) offset origin =
      result.map UInt64.ofNat := by
  intro v target result v'
  have hfit : file.Fit v.limits := (after_obeys l steps).safe.fit.files h file hf
  have hedits : v.Edits h v' := v.seek_edits h offset.toInt origin
  have hwords : OpenFile.seekWords (.ofNat file.position) (.ofNat file.size) offset origin =
      result.map UInt64.ofNat := by
    have hresult : result = _ := seek_result hf offset.toInt origin
    rw [OpenFile.seekWords_eq hfit.position_le hsize, hresult]
    cases file.seek offset.toInt origin <;> rfl
  obtain ⟨hin, hseek⟩ | ⟨hin, hseek⟩ := seek_cases hf hfit.position_le hsize offset origin
  · have hresult : result = .ok target.toNat := congrArg (·.result) hseek
    have hvolume :
        v' = { v with files := v.files.replace h { file with position := target.toNat } } :=
      congrArg (·.volume) hseek
    have hfind : v'.files.find? h = some { file with position := target.toNat } := by
      rw [hvolume]
      exact FileTable.replace_find?_self hf _
    refine ⟨iff_of_true ⟨_, hresult⟩ hin, ?_, ?_,
      ⟨?_, hedits.archive, hedits.opened, fun g hg => hedits.find?_of_ne hg, _, hfind⟩, hwords⟩
    · intro n hn
      obtain rfl := Except.ok.inj (hresult.symm.trans hn)
      exact ⟨Int.toNat_of_nonneg hin.1, hfind, congrArg (·.result) (tell_of_some hfind)⟩
    · intro e he
      cases hresult.symm.trans he
    · rw [hvolume]
      rfl
  · have hresult : result = .error (.invalidSeek (nearestOffset target)) :=
      congrArg (·.result) hseek
    have hvolume : v' = v := congrArg (·.volume) hseek
    refine ⟨iff_of_false ?_ hin, ?_, ?_,
      ⟨congrArg used hvolume, hedits.archive, hedits.opened, fun g hg => hedits.find?_of_ne hg,
        file.position, hvolume ▸ hf⟩, hwords⟩
    · rintro ⟨n, hn⟩
      cases hresult.symm.trans hn
    · intro n hn
      cases hresult.symm.trans hn
    · intro e he
      exact ⟨Except.error.inj (he.symm.trans hresult), hvolume⟩

/-- One byte back from the end there is a place. So far from the cursor that no offset holds the
target there is none. -/
theorem seek_exact_at_bounds :
    let grant : Allocator := fun _ _ => true
    let v := (ofLimits .usual).after
      [(grant, .save "a" [1, 2, 3]), (grant, .openAs "a" .read),
        (grant, .seek ⟨0, 2⟩ 2 .start)]
    (v.seek ⟨0, 2⟩ (-1) .finish).result = .ok 2 ∧
      (v.seek ⟨0, 2⟩ 0x7fffffffffffffff .cursor).result =
        .error (.invalidSeek 0x7fffffffffffffff) := by
  intro grant v
  have hf : v.files.find? ⟨0, 2⟩ = some ⟨"a", ⟨[1, 2, 3], 1024, {}⟩, 2, .read⟩ := by
    decide +kernel
  obtain ⟨⟨-, hback⟩, hmoved, -⟩ := seek_exact .usual _ hf (by decide) (-1) .finish
  obtain ⟨⟨hforth, -⟩, -, hrefused, -⟩ :=
    seek_exact .usual _ hf (by decide) 0x7fffffffffffffff .cursor
  constructor
  · obtain ⟨n, hn⟩ := hback (by decide)
    obtain ⟨htarget, -⟩ := hmoved n hn
    obtain rfl : n = 2 := Int.ofNat.inj (htarget.trans (by decide))
    exact hn
  · cases hr : (v.seek ⟨0, 2⟩ 0x7fffffffffffffff .cursor).result with
    | ok n => exact absurd (hforth ⟨n, hr⟩) (by decide)
    | error e => exact congrArg Except.error ((hrefused e hr).1.trans (by decide))

end Volume

end Enclave
