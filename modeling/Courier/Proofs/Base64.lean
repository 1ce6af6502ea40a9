import Courier.Base64

/-!
# Base64 texts are read back

A byte string is written in groups of four symbols for three bytes, the last one filled up with
padding. Reading takes a group together only when something follows it, so the last group is read
on its own whether it is complete or not. Both ways the symbols give back the bits they were
taken from.

## Main results

* `Base64.decode_encode`: the Base64 form of a byte string is read as the byte string.
* `Base64.ofText_text`: the symbols as a text are the symbols as bytes.
-/

namespace Courier

theorem Bytes.ofText_ofList_ascii {b : Bytes} (ascii : ∀ c ∈ b, c < 128) :
    Bytes.ofText (String.ofList (b.map fun c => Char.ofNat c.toNat)) = b := by
  rw [Bytes.ofText_ofList]
  induction b with
  | nil => rfl
  | cons c b ih =>
    have small : c.toNat < 128 := ascii c List.mem_cons_self
    have valid : c.toNat.isValidChar := .inl (by omega)
    have code : (Char.ofNat c.toNat).val.toNat = c.toNat := by
      rw [Char.ofNat, dif_pos valid]
      rfl
    have here : String.utf8EncodeChar (Char.ofNat c.toNat) = [c] := by
      simp only [String.utf8EncodeChar, code]
      rw [if_pos (by omega), UInt8.ofNat_toNat]
    have rest := ih fun d inside => ascii d (List.mem_cons_of_mem c inside)
    rw [List.map_cons, List.flatMap_cons, here, rest]
    rfl

namespace Base64

/-! ### Symbols -/

theorem value?_symbol : ∀ n < 64, value? (symbol n) = some n := by
  decide

theorem symbol_ne_pad : ∀ n < 64, symbol n ≠ pad := by
  decide

theorem symbol_lt : ∀ n < 64, symbol n < 128 := by
  decide

theorem valueAt_symbol {n : Nat} (small : n < 64) (offset : Nat) :
    valueAt offset (symbol n) = .ok n := by
  rw [valueAt, value?_symbol n small]

/-! ### Writing -/

/-- Groups are written one behind the other. -/
theorem encodeOnto_append : ∀ acc b : Bytes, encodeOnto acc b = acc.reverse ++ encode b
  | acc, a :: b :: c :: rest => by
    unfold encode
    rw [encodeOnto, encodeOnto, encodeOnto_append _ rest, encodeOnto_append [_, _, _, _] rest]
    simp
  | acc, [a, b] => by simp [encode, encodeOnto]
  | acc, [a] => by simp [encode, encodeOnto]
  | acc, [] => by simp [encode, encodeOnto]

/-- The number that three bytes make up. -/
def triple (a b c : UInt8) : Nat :=
  a.toNat * 65536 + b.toNat * 256 + c.toNat

theorem triple_lt (a b c : UInt8) : triple a b c < 16777216 := by
  have := a.toNat_lt
  have := b.toNat_lt
  have := c.toNat_lt
  unfold triple
  omega

/-- Three bytes are written as four symbols. -/
theorem encode_cons (a b c : UInt8) (rest : Bytes) :
    encode (a :: b :: c :: rest) =
      symbol (triple a b c / 262144) :: symbol (triple a b c / 4096 % 64) ::
        symbol (triple a b c / 64 % 64) :: symbol (triple a b c % 64) :: encode rest := by
  rw [encode, encodeOnto, encodeOnto_append]
  rfl

/-- Two bytes at the end are written as three symbols. -/
theorem encode_two (a b : UInt8) :
    encode [a, b] = [symbol ((a.toNat * 256 + b.toNat) / 1024),
      symbol ((a.toNat * 256 + b.toNat) / 16 % 64), symbol ((a.toNat * 256 + b.toNat) * 4 % 64),
      pad] :=
  rfl

theorem encode_one (a : UInt8) :
    encode [a] = [symbol (a.toNat / 4), symbol (a.toNat * 16 % 64), pad, pad] :=
  rfl

theorem encode_ne_nil (x : UInt8) (rest : Bytes) : ∃ e t, encode (x :: rest) = e :: t := by
  match rest with
  | [] => exact ⟨_, _, encode_one x⟩
  | [y] => exact ⟨_, _, encode_two x y⟩
  | y :: z :: rest => exact ⟨_, _, encode_cons x y z rest⟩

theorem length_encode : ∀ b : Bytes, (encode b).length % 4 = 0
  | a :: b :: c :: rest => by
    have := length_encode rest
    rw [encode_cons]
    simp only [List.length_cons]
    omega
  | [a, b] => by simp [encode_two]
  | [a] => by simp [encode_one]
  | [] => rfl

theorem encode_ascii : ∀ b : Bytes, ∀ c ∈ encode b, c < 128
  | a :: b :: c :: rest => by
    have small := triple_lt a b c
    rw [encode_cons]
    simp only [List.forall_mem_cons]
    exact ⟨symbol_lt _ (by omega), symbol_lt _ (by omega), symbol_lt _ (by omega),
      symbol_lt _ (by omega), encode_ascii rest⟩
  | [a, b] => by
    have := a.toNat_lt
    have := b.toNat_lt
    rw [encode_two]
    simp only [List.forall_mem_cons]
    exact ⟨symbol_lt _ (by omega), symbol_lt _ (by omega), symbol_lt _ (by omega), by decide, nofun⟩
  | [a] => by
    have := a.toNat_lt
    rw [encode_one]
    simp only [List.forall_mem_cons]
    exact ⟨symbol_lt _ (by omega), symbol_lt _ (by omega), by decide, by decide, nofun⟩
  | [] => nofun

/-- The symbols as a text are the symbols as bytes. -/
theorem ofText_text (b : Bytes) : Bytes.ofText (text b) = encode b := by
  have read := Bytes.ofText_ofList_ascii (encode_ascii b)
  rw [text, ← read, Bytes.text?_ofText, Option.getD_some]

/-! ### Reading -/

theorem bytes_triple (a b c : UInt8) :
    UInt8.ofNat (triple a b c / 65536) = a ∧ UInt8.ofNat (triple a b c / 256) = b ∧
      UInt8.ofNat (triple a b c) = c := by
  have := a.toNat_lt
  have := b.toNat_lt
  have := c.toNat_lt
  unfold triple
  simp only [← UInt8.toNat_inj, UInt8.toNat_ofNat']
  omega

theorem triple_digits (n : Nat) :
    n / 262144 * 262144 + n / 4096 % 64 * 4096 + n / 64 % 64 * 64 + n % 64 = n := by
  omega

theorem pair_digits (n : Nat) :
    n / 1024 * 4096 + n / 16 % 64 * 64 + n * 4 % 64 = n * 4 := by
  omega

theorem single_digits (n : Nat) : n / 4 * 64 + n * 16 % 64 = n * 16 := by
  omega

/-- A complete group that is not the last one is read as its three bytes. -/
theorem decodeFrom_group (offset : Nat) (acc : Bytes) (a b c x : UInt8) (rest : Bytes) :
    decodeFrom offset acc (encode (a :: b :: c :: x :: rest)) =
      decodeFrom (offset + 4) (c :: b :: a :: acc) (encode (x :: rest)) := by
  have small := triple_lt a b c
  obtain ⟨first, second, third⟩ := bytes_triple a b c
  obtain ⟨e, t, shape⟩ := encode_ne_nil x rest
  rw [encode_cons, shape, decodeFrom]
  simp only [valueAt_symbol (by omega : triple a b c / 262144 < 64),
    valueAt_symbol (Nat.mod_lt _ (by decide : 0 < 64)), triple_digits, first, second, third]

theorem lastGroup_symbol {n : Nat} (small : n < 64) (offset : Nat) (values : List Nat)
    (rest : Bytes) :
    lastGroup offset values 0 (symbol n :: rest) = lastGroup offset (values ++ [n]) 0 rest := by
  rw [lastGroup, if_neg (symbol_ne_pad n small), if_neg (Nat.lt_irrefl 0), valueAt_symbol small]
  rfl

theorem lastGroup_pad {values : List Nat} {padding : Nat} (late : 2 ≤ values.length + padding)
    (offset : Nat) (rest : Bytes) :
    lastGroup offset values padding (pad :: rest) = lastGroup offset values (padding + 1) rest := by
  rw [lastGroup, if_pos rfl, if_neg (by omega)]

/-- The last group is read by its symbols and its padding. -/
theorem decodeLast_of_lastGroup {offset : Nat} {group b : Bytes} {values : List Nat}
    {padding : Nat} (some : group ≠ []) (read : lastGroup offset [] 0 group = .ok (values, padding))
    (two : 2 ≤ values.length) (filled : (values.length + padding) % 4 = 0)
    (bytes : ∀ last, lastBytes offset last values = .ok b) : decodeLast offset group = .ok b := by
  have short : ¬ values.length < 2 := by omega
  simp only [decodeLast, some, and_false, if_false, read, bind, Except.bind, short, filled,
    ne_eq, not_true, bytes, pure, Except.pure]

theorem decodeLast_three (offset : Nat) (a b c : UInt8) :
    decodeLast offset (encode [a, b, c]) = .ok [a, b, c] := by
  have small := triple_lt a b c
  obtain ⟨first, second, third⟩ := bytes_triple a b c
  have high : triple a b c / 262144 < 64 := by omega
  have low : ∀ n, n % 64 < 64 := fun n => Nat.mod_lt n (by decide)
  rw [encode_cons]
  refine decodeLast_of_lastGroup nofun (by
    rw [lastGroup_symbol high, lastGroup_symbol (low _), lastGroup_symbol (low _),
      lastGroup_symbol (low _)]
    rfl) (by simp) (by simp) fun last => ?_
  simp only [List.nil_append, List.cons_append, lastBytes, triple_digits, first, second, third]

theorem decodeLast_two (offset : Nat) (a b : UInt8) :
    decodeLast offset (encode [a, b]) = .ok [a, b] := by
  have := a.toNat_lt
  have := b.toNat_lt
  rw [encode_two]
  generalize number : a.toNat * 256 + b.toNat = n
  refine decodeLast_of_lastGroup nofun (by
    rw [lastGroup_symbol (by omega), lastGroup_symbol (by omega), lastGroup_symbol (by omega),
      lastGroup_pad (by simp)]
    rfl) (by simp) (by simp) fun last => ?_
  have first : UInt8.ofNat (n * 4 / 1024) = a := by
    rw [← UInt8.toNat_inj, UInt8.toNat_ofNat']
    omega
  have second : UInt8.ofNat (n * 4 / 4) = b := by
    rw [← UInt8.toNat_inj, UInt8.toNat_ofNat']
    omega
  have whole : n * 4 % 4 = 0 := by omega
  simp only [List.nil_append, List.cons_append, lastBytes, pair_digits, whole, if_true, first,
    second]

theorem decodeLast_one (offset : Nat) (a : UInt8) :
    decodeLast offset (encode [a]) = .ok [a] := by
  have := a.toNat_lt
  rw [encode_one]
  generalize number : a.toNat = n
  refine decodeLast_of_lastGroup nofun (by
    rw [lastGroup_symbol (by omega), lastGroup_symbol (by omega), lastGroup_pad (by simp),
      lastGroup_pad (by simp)]
    rfl) (by simp) (by simp) fun last => ?_
  have first : UInt8.ofNat (n * 16 / 16) = a := by
    rw [← UInt8.toNat_inj, UInt8.toNat_ofNat']
    omega
  have whole : n * 16 % 16 = 0 := by omega
  simp only [List.nil_append, List.cons_append, lastBytes, single_digits, whole, if_true, first]

/-- From any group on, the rest of a Base64 form is read as the rest of the byte string. -/
theorem decodeFrom_encode : ∀ (offset : Nat) (acc b : Bytes), (offset = 0 ∨ b ≠ []) →
    decodeFrom offset acc (encode b) = .ok (acc.reverse ++ b)
  | offset, acc, a :: b :: c :: x :: rest, _ => by
    -- Something follows the group, so what is left is not empty.
    rw [decodeFrom_group, decodeFrom_encode _ _ (x :: rest) (.inr nofun)]
    simp
  | offset, acc, [a, b, c], _ => by
    change (decodeLast offset (encode [a, b, c])).map (acc.reverse ++ ·) = _
    rw [decodeLast_three]
    rfl
  | offset, acc, [a, b], _ => by
    change (decodeLast offset (encode [a, b])).map (acc.reverse ++ ·) = _
    rw [decodeLast_two]
    rfl
  | offset, acc, [a], _ => by
    change (decodeLast offset (encode [a])).map (acc.reverse ++ ·) = _
    rw [decodeLast_one]
    rfl
  | offset, acc, [], first => by
    obtain rfl : offset = 0 := first.resolve_right fun some => some rfl
    rfl

/-- The Base64 form of a byte string is read as the byte string. -/
theorem decode_encode (b : Bytes) : decode (encode b) = .ok b := by
  have stray : strayByte? (encode b) = none := by
    unfold strayByte?
    split
    · rw [if_neg (by rw [length_encode b]; omega)]
    · rfl
  rw [decode, stray]
  exact decodeFrom_encode 0 [] b (.inl rfl)

end Base64

end Courier
