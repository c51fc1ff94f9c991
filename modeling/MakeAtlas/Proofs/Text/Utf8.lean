/-
Reading what was written. The bytes of a text decode to the text, with nothing broken, and no other bytes do.
- `lead_one`, `lead_two`, `lead_three`, `lead_four`, `follow_ofNat`: what one byte means, by its payload.
- `piecesFrom_encode`: the bytes of one character, whatever comes after them, are read as that character.
- `pieces_encode`, `decodeLenient_encode`: the bytes of a text are read as that text.
- `exists_encode_append`: bytes that begin with nothing broken begin with a character.
- `decode?_eq_some_iff`: a strict reader takes the bytes of a text, and refuses all others.
-/
import Mathlib.Tactic
import MakeAtlas.Text.Encoding

namespace MakeAtlas.Text.Utf8

/-! ## One byte -/

/-- the second of three bytes: no character below U+0800, no surrogate -/
def secondOfThree (payload : ℕ) : ByteRange :=
  (if payload = 0 then 0xA0 else 0x80, if payload = 0xD then 0x9F else 0xBF)

/-- the second of four bytes: no character below U+10000, none above U+10FFFF -/
def secondOfFour (payload : ℕ) : ByteRange := (if payload = 0 then 0x90 else 0x80, if payload = 4 then 0x8F else 0xBF)

theorem lead_one : ∀ n < 0x80, lead (UInt8.ofNat n) = some (n, []) := by decide

theorem lead_two : ∀ n < 0x20, n < 2 ∨ lead (UInt8.ofNat (n + 0xC0)) = some (n, [cont]) := by decide

theorem lead_three : ∀ n < 0x10, lead (UInt8.ofNat (n + 0xE0)) = some (n, [secondOfThree n, cont]) := by decide

theorem lead_four : ∀ n < 5, lead (UInt8.ofNat (n + 0xF0)) = some (n, [secondOfFour n, cont, cont]) := by decide

/-- a byte in the range that is wanted brings its six bits -/
theorem follow_ofNat (acc : ℕ) (range : ByteRange) (more : List ByteRange) {n : ℕ} (hn : n < 0x40)
    (hlo : range.1.toNat ≤ n + 0x80) (hhi : n + 0x80 ≤ range.2.toNat) :
    follow acc (range :: more) (UInt8.ofNat (n + 0x80)) = some (acc * 64 + n, more) := by
  have hb : (UInt8.ofNat (n + 0x80)).toNat = n + 0x80 := UInt8.toNat_ofNat_of_lt' (by simp [UInt8.size]; omega)
  have hrange : (range.1 ≤ UInt8.ofNat (n + 0x80) && UInt8.ofNat (n + 0x80) ≤ range.2) = true := by
    rw [Bool.and_eq_true, decide_eq_true_iff, decide_eq_true_iff, UInt8.le_iff_toNat_le, UInt8.le_iff_toNat_le, hb]
    exact ⟨hlo, hhi⟩
  rw [follow, if_pos hrange, hb, Nat.add_sub_cancel]

theorem follow_cont (acc : ℕ) (more : List ByteRange) {n : ℕ} (hn : n < 0x40) :
    follow acc (cont :: more) (UInt8.ofNat (n + 0x80)) = some (acc * 64 + n, more) :=
  follow_ofNat acc cont more hn (by simp [cont]) (by simp [cont]; omega)

/-! ## One character -/

section

variable {acc n v : ℕ} {range : ByteRange} {want more : List ByteRange} {b : UInt8} (bs : List UInt8)

theorem piecesFrom_lead_last (h : lead b = some (n, [])) :
    piecesFrom 0 [] (b :: bs) = some (Char.ofNat n) :: piecesFrom 0 [] bs := by
  simp [piecesFrom, follow, stray, h]

theorem piecesFrom_lead (h : lead b = some (n, range :: more)) :
    piecesFrom 0 [] (b :: bs) = piecesFrom n (range :: more) bs := by
  simp [piecesFrom, follow, stray, h]

theorem piecesFrom_follow_last (h : follow acc want b = some (n, [])) :
    piecesFrom acc want (b :: bs) = some (Char.ofNat n) :: piecesFrom 0 [] bs := by
  simp [piecesFrom, h]

theorem piecesFrom_follow (h : follow acc want b = some (n, range :: more)) :
    piecesFrom acc want (b :: bs) = piecesFrom n (range :: more) bs := by
  simp [piecesFrom, h]

theorem piecesFrom_two (hlo : 0x80 ≤ v) (hhi : v < 0x800) :
    piecesFrom 0 [] (UInt8.ofNat (v / 64 % 32 + 0xC0) :: UInt8.ofNat (v % 64 + 0x80) :: bs) =
      some (Char.ofNat v) :: piecesFrom 0 [] bs := by
  have hlead := (lead_two (v / 64 % 32) (by omega)).resolve_left (by omega)
  have hlast := follow_cont (v / 64 % 32) [] (n := v % 64) (by omega)
  have hval : v / 64 % 32 * 64 + v % 64 = v := by omega
  rw [piecesFrom_lead _ hlead, piecesFrom_follow_last _ hlast, hval]

theorem piecesFrom_three (hlo : 0x800 ≤ v) (hhi : v < 0x10000) (hv : v < 0xD800 ∨ 0xDFFF < v) :
    piecesFrom 0 [] (UInt8.ofNat (v / 4096 % 16 + 0xE0) :: UInt8.ofNat (v / 64 % 64 + 0x80) ::
    UInt8.ofNat (v % 64 + 0x80) :: bs) =
      some (Char.ofNat v) :: piecesFrom 0 [] bs := by
  have hlead := lead_three (v / 4096 % 16) (by omega)
  have hsecond : (secondOfThree (v / 4096 % 16)).1.toNat ≤ v / 64 % 64 + 0x80 ∧
      v / 64 % 64 + 0x80 ≤ (secondOfThree (v / 4096 % 16)).2.toNat := by
    simp only [secondOfThree, apply_ite UInt8.toNat, UInt8.reduceToNat]
    constructor <;> split <;> omega
  have hnext := follow_ofNat (v / 4096 % 16) _ [cont] (by omega) hsecond.1 hsecond.2
  have hlast := follow_cont (v / 4096 % 16 * 64 + v / 64 % 64) [] (n := v % 64) (by omega)
  have hval : (v / 4096 % 16 * 64 + v / 64 % 64) * 64 + v % 64 = v := by omega
  rw [piecesFrom_lead _ hlead, piecesFrom_follow _ hnext, piecesFrom_follow_last _ hlast, hval]

theorem piecesFrom_four (hlo : 0x10000 ≤ v) (hhi : v < 0x110000) :
    piecesFrom 0 [] (UInt8.ofNat (v / 262144 % 8 + 0xF0) :: UInt8.ofNat (v / 4096 % 64 + 0x80) ::
      UInt8.ofNat (v / 64 % 64 + 0x80) :: UInt8.ofNat (v % 64 + 0x80) :: bs) = some (Char.ofNat v) ::
      piecesFrom 0 [] bs := by
  have hlead := lead_four (v / 262144 % 8) (by omega)
  have hsecond : (secondOfFour (v / 262144 % 8)).1.toNat ≤ v / 4096 % 64 + 0x80 ∧
      v / 4096 % 64 + 0x80 ≤ (secondOfFour (v / 262144 % 8)).2.toNat := by
    simp only [secondOfFour, apply_ite UInt8.toNat, UInt8.reduceToNat]
    constructor <;> split <;> omega
  have hnext := follow_ofNat (v / 262144 % 8) _ [cont, cont] (by omega) hsecond.1 hsecond.2
  have hthird := follow_cont (v / 262144 % 8 * 64 + v / 4096 % 64) [cont] (n := v / 64 % 64) (by omega)
  have hlast := follow_cont ((v / 262144 % 8 * 64 + v / 4096 % 64) * 64 + v / 64 % 64) [] (n := v % 64) (by omega)
  have hval : ((v / 262144 % 8 * 64 + v / 4096 % 64) * 64 + v / 64 % 64) * 64 + v % 64 = v := by omega
  rw [piecesFrom_lead _ hlead, piecesFrom_follow _ hnext, piecesFrom_follow _ hthird,
    piecesFrom_follow_last _ hlast, hval]

/-- **One character.** -/
theorem piecesFrom_encode (c : Char) :
    piecesFrom 0 [] (String.utf8EncodeChar c ++ bs) = some c :: piecesFrom 0 [] bs := by
  have hv : c.val.toNat < 0xD800 ∨ 0xDFFF < c.val.toNat ∧ c.val.toNat < 0x110000 := c.valid
  conv_rhs => rw [← Char.ofNat_toNat c]
  fun_cases String.utf8EncodeChar c with
  | case1 v h1 => exact piecesFrom_lead_last bs (lead_one v (by omega))
  | case2 v h1 h2 => exact piecesFrom_two bs (by omega) (by omega)
  | case3 v h1 h2 h3 => exact piecesFrom_three bs (by omega) (by omega) (by omega)
  | case4 v h1 h2 h3 => exact piecesFrom_four bs (by omega) (by omega)

end

/-! ## A text -/

theorem pieces_encode (s : List Char) : pieces (encode s) = s.map some := by
  unfold pieces
  induction s with
  | nil => rfl
  | cons c s ih => rw [encode, List.flatMap_cons, piecesFrom_encode, ← encode, ih, List.map_cons]

/-- **Nothing is lost.** -/
theorem decodeLenient_encode (s : List Char) : decodeLenient (encode s) = s := by
  rw [decodeLenient, pieces_encode, List.map_map]
  exact List.map_id' s

/-! ## Only texts -/

section

variable {acc k : ℕ} {range : ByteRange} {more : List ByteRange} {bs : List UInt8}

theorem lead_cases : ∀ k < 0x100, lead (UInt8.ofNat k) = none ∨ k < 0x80 ∨ (∃ n < 0x20, 2 ≤ n ∧ k = n + 0xC0) ∨
    (∃ n < 0x10, k = n + 0xE0) ∨ ∃ n < 5, k = n + 0xF0 := by decide +kernel

/-- a byte that is wanted comes, or something is broken -/
theorem exists_follow (h : none ∉ piecesFrom acc (range :: more) bs) (hlo : 0x80 ≤ range.1.toNat)
    (hhi : range.2.toNat ≤ 0xBF) :
    ∃ n < 0x40, ∃ rest, bs = UInt8.ofNat (n + 0x80) :: rest ∧ range.1.toNat ≤ n + 0x80 ∧ n + 0x80 ≤ range.2.toNat := by
  cases bs with
  | nil => simp [piecesFrom, stray] at h
  | cons b bs =>
    have hrange : range.1 ≤ b ∧ b ≤ range.2 := by
      by_contra hout
      have hfollow : follow acc (range :: more) b = none := by simp [follow, hout]
      simp [piecesFrom, hfollow, stray] at h
    rw [UInt8.le_iff_toNat_le, UInt8.le_iff_toNat_le] at hrange
    have hval : b.toNat - 0x80 + 0x80 = b.toNat := by omega
    refine ⟨b.toNat - 0x80, by omega, bs, ?_, by omega, by omega⟩
    rw [hval, UInt8.ofNat_toNat]

/-- the byte that is wanted, and what is wanted after it -/
theorem exists_follow_more {next : ByteRange} (h : none ∉ piecesFrom acc (range :: next :: more) bs)
    (hlo : 0x80 ≤ range.1.toNat) (hhi : range.2.toNat ≤ 0xBF) :
    ∃ n < 0x40, ∃ rest, bs = UInt8.ofNat (n + 0x80) :: rest ∧ range.1.toNat ≤ n + 0x80 ∧
      n + 0x80 ≤ range.2.toNat ∧ none ∉ piecesFrom (acc * 64 + n) (next :: more) rest := by
  obtain ⟨n, hn, rest, rfl, hmin, hmax⟩ := exists_follow h hlo hhi
  rw [piecesFrom_follow rest (follow_ofNat acc range (next :: more) hn hmin hmax)] at h
  exact ⟨n, hn, rest, rfl, hmin, hmax, h⟩

theorem val_ofNat {v : ℕ} (hv : v < 0xD800 ∨ 0xDFFF < v ∧ v < 0x110000) : (Char.ofNat v).val.toNat = v := by
  have hvalid : v.isValidChar := hv
  rw [Char.ofNat, dif_pos hvalid]
  rfl

theorem encode_one {v : ℕ} (hv : v < 0x80) : String.utf8EncodeChar (Char.ofNat v) = [UInt8.ofNat v] := by
  have hval := val_ofNat (v := v) (by omega)
  rw [String.utf8EncodeChar, hval, if_pos (by omega)]

theorem encode_two {n i : ℕ} (hn : 2 ≤ n) (hn' : n < 0x20) (hi : i < 0x40) :
    String.utf8EncodeChar (Char.ofNat (n * 64 + i)) = [UInt8.ofNat (n + 0xC0), UInt8.ofNat (i + 0x80)] := by
  have hval := val_ofNat (v := n * 64 + i) (by omega)
  have hlead : (n * 64 + i) / 64 % 32 = n := by omega
  have hlast : (n * 64 + i) % 64 = i := by omega
  rw [String.utf8EncodeChar, hval, if_neg (by omega), if_pos (by omega), hlead, hlast]

theorem encode_three {n i j : ℕ} (hn : n < 0x10) (hi : i < 0x40) (hj : j < 0x40) (hlow : n = 0 → 0x20 ≤ i)
    (hsurrogate : n = 0xD → i < 0x20) : String.utf8EncodeChar (Char.ofNat ((n * 64 + i) * 64 + j)) =
      [UInt8.ofNat (n + 0xE0), UInt8.ofNat (i + 0x80), UInt8.ofNat (j + 0x80)] := by
  have hval := val_ofNat (v := (n * 64 + i) * 64 + j) (by omega)
  have hlead : ((n * 64 + i) * 64 + j) / 4096 % 16 = n := by omega
  have hnext : ((n * 64 + i) * 64 + j) / 64 % 64 = i := by omega
  have hlast : ((n * 64 + i) * 64 + j) % 64 = j := by omega
  rw [String.utf8EncodeChar, hval, if_neg (by omega), if_neg (by omega), if_pos (by omega), hlead, hnext, hlast]

theorem encode_four {n i j l : ℕ} (hn : n < 5) (hi : i < 0x40) (hj : j < 0x40) (hl : l < 0x40) (hlow : n = 0 → 0x10 ≤ i)
    (hhigh : n = 4 → i < 0x10) : String.utf8EncodeChar (Char.ofNat (((n * 64 + i) * 64 + j) * 64 + l)) =
      [UInt8.ofNat (n + 0xF0), UInt8.ofNat (i + 0x80), UInt8.ofNat (j + 0x80), UInt8.ofNat (l + 0x80)] := by
  have hval := val_ofNat (v := ((n * 64 + i) * 64 + j) * 64 + l) (by omega)
  have hlead : (((n * 64 + i) * 64 + j) * 64 + l) / 262144 % 8 = n := by omega
  have hnext : (((n * 64 + i) * 64 + j) * 64 + l) / 4096 % 64 = i := by omega
  have hthird : (((n * 64 + i) * 64 + j) * 64 + l) / 64 % 64 = j := by omega
  have hlast : (((n * 64 + i) * 64 + j) * 64 + l) % 64 = l := by omega
  rw [String.utf8EncodeChar, hval, if_neg (by omega), if_neg (by omega), if_neg (by omega), hlead, hnext, hthird, hlast]

theorem secondOfThree_bounds (n i : ℕ) (hlo : (secondOfThree n).1.toNat ≤ i + 0x80)
    (hhi : i + 0x80 ≤ (secondOfThree n).2.toNat) :
    (n = 0 → 0x20 ≤ i) ∧ (n = 0xD → i < 0x20) := by
  simp only [secondOfThree, apply_ite UInt8.toNat, UInt8.reduceToNat] at hlo hhi
  constructor <;> rintro rfl <;> simp at hlo hhi <;> omega

theorem secondOfFour_bounds (n i : ℕ) (hlo : (secondOfFour n).1.toNat ≤ i + 0x80)
    (hhi : i + 0x80 ≤ (secondOfFour n).2.toNat) :
    (n = 0 → 0x10 ≤ i) ∧ (n = 4 → i < 0x10) := by
  simp only [secondOfFour, apply_ite UInt8.toNat, UInt8.reduceToNat] at hlo hhi
  constructor <;> rintro rfl <;> simp at hlo hhi <;> omega

theorem secondOfThree_range (n : ℕ) : 0x80 ≤ (secondOfThree n).1.toNat ∧ (secondOfThree n).2.toNat ≤ 0xBF := by
  simp only [secondOfThree, apply_ite UInt8.toNat, UInt8.reduceToNat]
  constructor <;> split <;> omega

theorem secondOfFour_range (n : ℕ) : 0x80 ≤ (secondOfFour n).1.toNat ∧ (secondOfFour n).2.toNat ≤ 0xBF := by
  simp only [secondOfFour, apply_ite UInt8.toNat, UInt8.reduceToNat]
  constructor <;> split <;> omega

/-- bytes that begin with nothing broken begin with a character -/
theorem exists_encode_append {b : UInt8} (h : none ∉ piecesFrom 0 [] (b :: bs)) :
    ∃ c rest, b :: bs = String.utf8EncodeChar c ++ rest := by
  have hcont : 0x80 ≤ cont.1.toNat ∧ cont.2.toNat ≤ 0xBF := by decide
  rcases lead_cases b.toNat b.toNat_lt with hnone | hone | ⟨n, hn, hn2, hb⟩ | ⟨n, hn, hb⟩ | ⟨n, hn, hb⟩
  · rw [UInt8.ofNat_toNat] at hnone
    simp [piecesFrom, follow, hnone] at h
  · refine ⟨Char.ofNat b.toNat, bs, ?_⟩
    rw [encode_one hone, UInt8.ofNat_toNat, List.singleton_append]
  · obtain rfl : b = UInt8.ofNat (n + 0xC0) := by rw [← hb, UInt8.ofNat_toNat]
    rw [piecesFrom_lead _ ((lead_two n hn).resolve_left (by omega))] at h
    obtain ⟨i, hi, rest, rfl, -⟩ := exists_follow h hcont.1 hcont.2
    exact ⟨_, rest, by rw [encode_two hn2 hn hi]; rfl⟩
  · obtain rfl : b = UInt8.ofNat (n + 0xE0) := by rw [← hb, UInt8.ofNat_toNat]
    rw [piecesFrom_lead _ (lead_three n hn)] at h
    obtain ⟨i, hi, rest, rfl, hlo, hhi, hmore⟩ :=
      exists_follow_more h (secondOfThree_range n).1 (secondOfThree_range n).2
    obtain ⟨j, hj, rest, rfl, -⟩ := exists_follow hmore hcont.1 hcont.2
    obtain ⟨hlow, hsurrogate⟩ := secondOfThree_bounds n i hlo hhi
    exact ⟨_, rest, by rw [encode_three hn hi hj hlow hsurrogate]; rfl⟩
  · obtain rfl : b = UInt8.ofNat (n + 0xF0) := by rw [← hb, UInt8.ofNat_toNat]
    rw [piecesFrom_lead _ (lead_four n hn)] at h
    obtain ⟨i, hi, rest, rfl, hlo, hhi, hmore⟩ := exists_follow_more h (secondOfFour_range n).1 (secondOfFour_range n).2
    obtain ⟨j, hj, rest, rfl, -, -, hlast⟩ := exists_follow_more hmore hcont.1 hcont.2
    obtain ⟨l, hl, rest, rfl, -⟩ := exists_follow hlast hcont.1 hcont.2
    obtain ⟨hlow, hhigh⟩ := secondOfFour_bounds n i hlo hhi
    exact ⟨_, rest, by rw [encode_four hn hi hj hl hlow hhigh]; rfl⟩

/-- bytes without anything broken are those of a text -/
theorem exists_eq_encode (bytes : List UInt8) (h : none ∉ pieces bytes) : ∃ s, bytes = encode s := by
  induction hlen : bytes.length using Nat.strong_induction_on generalizing bytes with
  | _ len ih =>
    cases bytes with
    | nil => exact ⟨[], rfl⟩
    | cons b bs =>
      obtain ⟨c, rest, hbytes⟩ := exists_encode_append h
      have hshort : rest.length < len := by
        rw [← hlen, hbytes, List.length_append]
        exact Nat.lt_add_of_pos_left (List.length_pos_iff.2 String.utf8EncodeChar_ne_nil)
      rw [hbytes, pieces, piecesFrom_encode, List.mem_cons, not_or] at h
      obtain ⟨s, rfl⟩ := ih rest.length hshort rest h.2 rfl
      exact ⟨c :: s, hbytes⟩

theorem decode?_encode (s : List Char) : decode? (encode s) = some s := by
  rw [decode?, pieces_encode]
  induction s with
  | nil => rfl
  | cons c s ih =>
    rw [List.map_cons, List.mapM_cons, ih]
    rfl

theorem encode_injective : Function.Injective encode := fun s t h =>
  Option.some.inj ((decode?_encode s).symm.trans ((congrArg decode? h).trans (decode?_encode t)))

theorem not_mem_pieces {bytes : List UInt8} {s : List Char} (h : decode? bytes = some s) : none ∉ pieces bytes := by
  rw [decode?] at h
  generalize pieces bytes = ps at h
  induction ps generalizing s with
  | nil => exact List.not_mem_nil
  | cons p ps ih =>
    rw [List.mapM_cons] at h
    cases p with
    | none => cases h
    | some c =>
      obtain ⟨_, -, hrest⟩ := Option.bind_eq_some_iff.1 h
      obtain ⟨t, ht, -⟩ := Option.bind_eq_some_iff.1 hrest
      simpa using ih ht

/-- **A strict reader takes texts and nothing else.** -/
theorem decode?_eq_some_iff {bytes : List UInt8} {s : List Char} : decode? bytes = some s ↔ bytes = encode s := by
  constructor
  · intro h
    obtain ⟨t, rfl⟩ := exists_eq_encode bytes (not_mem_pieces h)
    rw [decode?_encode, Option.some.injEq] at h
    rw [h]
  · rintro rfl
    exact decode?_encode s

end

end MakeAtlas.Text.Utf8
