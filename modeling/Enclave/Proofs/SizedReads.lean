import Enclave.Proofs.Draining
import Enclave.Proofs.Sentinels

namespace Enclave

namespace Volume

variable {v : Volume} {h : Handle} {file : OpenFile}

theorem read_left (hf : v.files.find? h = some file) {n : Nat} {out : Bytes}
    (hroom : n ≤ out.length) (hword : n < wordLimit) :
    let wanted := min (file.size - file.position) n
    let sized := v.read h (List.replicate wanted 0) 1 wanted
    let whole := v.read h out 1 n
    sized.1 = whole.1 ∧
      ∀ k, whole.1.result = .ok k → k ≤ n ∧ sized.2.take k = whole.2.take k := by
  intro wanted sized whole
  by_cases hmode : file.mode.canRead
  · have hwanted : wanted < wordLimit := Nat.lt_of_le_of_lt (Nat.min_le_right _ _) hword
    have hfits : wanted ≤ (List.replicate wanted (0 : UInt8)).length :=
      Nat.le_of_eq List.length_replicate.symm
    have hsized := read_bytes hf hmode hfits hwanted
    have hwhole := read_bytes hf hmode hroom hword
    rw [file.ahead_left] at hsized
    refine ⟨?_, fun k hk => ?_⟩
    · simp only [sized, whole, hsized, hwhole]
    · simp only [whole, hwhole, Except.ok.injEq] at hk
      refine ⟨?_, ?_⟩
      · rw [← hk]
        exact List.length_take_le _ _
      · simp only [sized, whole, hsized, hwhole, ← hk, List.take_left]
  · have hsized := read_of_unreadable hf hmode (List.replicate wanted 0) 1 wanted
    have hwhole := read_of_unreadable hf hmode out 1 n
    refine ⟨?_, fun k hk => ?_⟩
    · simp only [sized, whole, hsized, hwhole]
    · simp only [whole, hwhole] at hk
      cases hk

end Volume

namespace Host

namespace Session

variable {s : Session} {h : UInt32}

def readInto (s : Session) (h : UInt32) (out : Bytes) (length : UInt32) : Bytes × Session :=
  let read := s.read h out 1 length
  (read.1.2.take read.1.1.toNat, read.2)

theorem readInto_eq (s : Session) (h : UInt32) (out : Bytes) (length : UInt32) :
    s.readInto h out length =
      let read := s.volume.read (.unpack h) out 1 length.toNat
      let told := countCode read.1.result s.lastFault
      (read.2.take told.1.toNat, ⟨read.1.volume, told.2⟩) := rfl

theorem readInto_of_error {out : Bytes} {length : UInt32} {e : Fault}
    (he : (s.volume.read (.unpack h) out 1 length.toNat).1.result = .error e) :
    s.readInto h out length = ([], ⟨s.volume, some e⟩) := by
  rw [readInto_eq]
  obtain ⟨e', events, hread⟩ | ⟨file, -, -, hread⟩ :=
    Volume.read_outcome s.volume (.unpack h) out 1 length.toNat
  · rw [hread] at he ⊢
    cases he
    rfl
  · rw [hread] at he
    cases he

theorem readUpTo_sized {file : OpenFile} (hf : s.volume.files.find? (.unpack h) = some file)
    (length : UInt32) :
    let wanted := min (file.size - file.position) length.toNat
    s.readUpTo h length = s.readInto h (List.replicate wanted 0) (UInt32.ofNat wanted) := by
  intro wanted
  have hwanted : (UInt32.ofNat wanted).toNat = wanted :=
    UInt32.toNat_ofNat_of_lt' (Nat.lt_of_le_of_lt (Nat.min_le_right _ _) length.toNat_lt)
  rw [readUpTo_of_some hf, readInto_eq, hwanted]

theorem readUpTo_eq (s : Session) (h length : UInt32) {out : Bytes}
    (hroom : length.toNat ≤ out.length) : s.readUpTo h length = s.readInto h out length := by
  have hcount : length.toNat ≤ greatestCount := Nat.le_of_lt_succ length.toNat_lt
  have hword : length.toNat < wordLimit := Nat.lt_of_le_of_lt hcount (by decide)
  cases hf : s.volume.files.find? (.unpack h) with
  | none =>
    have hread := Volume.read_of_none hf out 1 length.toNat
    rw [readUpTo_of_none hf, readInto_of_error (congrArg (·.1.result) hread)]
  | some file =>
    obtain ⟨hreply, hbytes⟩ := Volume.read_left hf hroom hword
    rw [readUpTo_of_some hf, readInto_eq]
    simp only [hreply]
    cases hresult : (s.volume.read (.unpack h) out 1 length.toNat).1.result with
    | error e => rfl
    | ok k =>
      obtain ⟨hle, htaken⟩ := hbytes k hresult
      simp only [countCode, toNat_saturate (Nat.le_trans hle hcount), htaken]

/-- A read that is sized by what is left gives a host the bytes that a read into a region of
`length` bytes copies there, and leaves what that read leaves: every file with its cursor, the
entries, the bytes that are charged and the last fault. It asks for no more than is left, and gives
nothing where the read fails. -/
theorem readUpTo_agrees_with_read (s : Session) (h length : UInt32) {out : Bytes}
    (hout : out.length = length.toNat) :
    let read := s.read h out 1 length
    s.readUpTo h length = (read.1.2.take read.1.1.toNat, read.2) ∧
      (∀ e, (s.volume.read (.unpack h) out 1 length.toNat).1.result = .error e →
        s.readUpTo h length = ([], ⟨s.volume, some e⟩)) ∧
      ∀ file, s.volume.files.find? (.unpack h) = some file →
        let wanted := min (file.size - file.position) length.toNat
        let asked := s.read h (List.replicate wanted 0) 1 (UInt32.ofNat wanted)
        s.readUpTo h length = (asked.1.2.take asked.1.1.toNat, asked.2) := by
  have hwhole : s.readUpTo h length = s.readInto h out length :=
    readUpTo_eq s h length (Nat.le_of_eq hout.symm)
  refine ⟨hwhole, fun e he => ?_, fun file hf => readUpTo_sized hf length⟩
  rw [hwhole, readInto_of_error he]

/-- Five bytes are asked of three, and a handle that no file has is asked for one. -/
theorem readUpTo_agrees_with_read_past_end :
    let grant : Allocator := fun _ _ => true
    let s := usual.after [(grant, .save "a" [1, 2, 3]), (grant, .openFile "a" "r")]
    let out : Bytes := List.replicate 5 9
    (s.read 131072 out 1 5).1 = (3, [1, 2, 3, 9, 9]) ∧
      s.readUpTo 131072 5 = ([1, 2, 3], (s.read 131072 out 1 5).2) ∧
      s.readUpTo 7 1 = ([], ⟨s.volume, some .invalidHandle⟩) := by
  intro grant s out
  have hread : (s.read 131072 out 1 5).1 = (3, [1, 2, 3, 9, 9]) := by decide +kernel
  have hnone : s.volume.files.find? (.unpack 7) = none := by decide +kernel
  have hforged : (s.volume.read (.unpack 7) [0] 1 (UInt32.toNat 1)).1.result =
      .error .invalidHandle := by
    rw [Volume.read_of_none hnone]
  have hfive : out.length = UInt32.toNat 5 := rfl
  have hone : [(0 : UInt8)].length = UInt32.toNat 1 := rfl
  obtain ⟨hwhole, -⟩ := readUpTo_agrees_with_read s 131072 5 hfive
  obtain ⟨-, hfails, -⟩ := readUpTo_agrees_with_read s 7 1 hone
  rw [hread] at hwhole
  exact ⟨hread, hwhole, hfails _ hforged⟩

end Session

def Call.inFull : Call → Call
  | .readUpTo h length => .read h (List.replicate length.toNat 0) 1 length
  | call => call

namespace Session

theorem serve_inFull (s : Session) (grant : Allocator) (call : Call) :
    (s.serve grant call.inFull).2 = (s.serve grant call).2 := by
  cases call with
  | readUpTo h length =>
    have hroom : length.toNat ≤ (List.replicate length.toNat (0 : UInt8)).length :=
      Nat.le_of_eq List.length_replicate.symm
    have hsession := congrArg Prod.snd (readUpTo_eq s h length hroom)
    exact hsession.symm
  | _ => rfl

theorem after_inFull (s : Session) (calls : List (Allocator × Call)) :
    s.after (calls.map fun step => (step.1, step.2.inFull)) = s.after calls := by
  induction calls generalizing s with
  | nil => rfl
  | cons step rest ih =>
    have hstep := serve_inFull s step.1 step.2
    simp only [after, List.map_cons, List.foldl_cons, hstep]
    exact ih _

end Session

end Host

end Enclave
