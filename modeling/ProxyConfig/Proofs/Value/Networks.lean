import ProxyConfig.Value.Address
import ProxyConfig.Proofs.Text.Cut
import ProxyConfig.Proofs.Value.Numerals

/-! # Networks

An address is written in hexadecimal digits, full stops and colons, whatever its family. So the first
slash of a network ends its address, and a network is an address, a slash and a number of bits that the
family of the address has.
-/

namespace ProxyConfig.Text

/-- The characters that addresses are written in. -/
def isAddressChar (c : Char) : Bool := isHexDigit c || c == '.' || c == ':'

variable {s : Text}

/-- What holds of a separator and of all characters of the pieces holds of all characters. -/
theorem forall_mem_of_pieces {d : Char} {P : Char → Prop} (separator : P d)
    (each : ∀ t ∈ pieces d s, ∀ c ∈ t, P c) : ∀ c ∈ s, P c := by
  induction s using pieces_induction (d := d) with
  | single s absent =>
    rw [pieces_of_not_mem absent] at each
    exact each s (List.mem_singleton_self s)
  | more piece s absent ih =>
    rw [pieces_append_cons absent, List.forall_mem_cons] at each
    exact List.forall_mem_append.mpr ⟨each.1, List.forall_mem_cons.mpr ⟨separator, ih each.2⟩⟩

theorem forall_mem_of_isDottedQuad (quad : isDottedQuad s = true) :
    ∀ c ∈ s, isAddressChar c = true := by
  rw [isDottedQuad, Bool.and_eq_true, List.all_eq_true] at quad
  refine forall_mem_of_pieces (d := '.') (by decide) fun t member c inside => ?_
  have octet := quad.2 t member
  simp only [isOctet, isDigits, Bool.and_eq_true, List.all_eq_true] at octet
  have digit : c.isDigit = true := octet.1.1.1.2 c inside
  simp [isAddressChar, isHexDigit, digit]

theorem forall_mem_of_hexGroup? {group : UInt16} (read : hexGroup? s = some group) :
    ∀ c ∈ s, isAddressChar c = true := by
  rw [hexGroup?, Option.ite_none_right_eq_some, isHexGroup, Bool.and_eq_true, List.all_eq_true] at read
  intro c inside
  have digit : isHexDigit c = true := read.1.2 c inside
  simp [isAddressChar, digit]

/-- The last piece may be a dotted address, and all others are groups. -/
theorem forall_mem_of_groups? {dotted : Bool} {texts : List Text} {groups : List UInt16}
    (read : groups? dotted texts = some groups) :
    ∀ t ∈ texts, ∀ c ∈ t, isAddressChar c = true := by
  induction texts generalizing groups with
  | nil => exact List.forall_mem_nil _
  | cons first rest ih =>
    cases rest with
    | nil =>
      rw [List.forall_mem_singleton]
      rw [groups?] at read
      split at read
      · next group found => exact forall_mem_of_hexGroup? found
      · rw [Option.ite_none_right_eq_some, dottedGroups?, Option.ite_none_right_eq_some] at read
        exact forall_mem_of_isDottedQuad read.2.1
    | cons second others =>
      simp only [groups?, bind, Option.bind_eq_some_iff] at read
      obtain ⟨group, found, behind, readRest, -⟩ := read
      exact List.forall_mem_cons.mpr ⟨forall_mem_of_hexGroup? found, ih readRest⟩

theorem forall_mem_of_partGroups? {dotted : Bool} {groups : List UInt16}
    (read : partGroups? dotted s = some groups) : ∀ c ∈ s, isAddressChar c = true := by
  rw [partGroups?] at read
  split at read
  · next empty =>
    rw [List.isEmpty_iff.mp empty]
    exact List.forall_mem_nil _
  · exact forall_mem_of_pieces (d := ':') (by decide) (forall_mem_of_groups? read)

theorem append_of_cutAtGap? {before after : Text} (found : cutAtGap? s = some (before, after)) :
    s = before ++ ':' :: ':' :: after := by
  fun_induction cutAtGap? s generalizing before with
  | case1 => cases found
  | case2 s =>
    cases found
    rfl
  | case3 c s _ ih =>
    obtain ⟨⟨first, last⟩, inner, same⟩ := Option.map_eq_some_iff.mp found
    cases same
    rw [ih inner, List.cons_append]

theorem forall_mem_of_isColonAddress (accepted : isColonAddress s = true) :
    ∀ c ∈ s, isAddressChar c = true := by
  obtain ⟨groups, read⟩ := Option.isSome_iff_exists.mp accepted
  rw [colonGroups?] at read
  split at read
  · obtain ⟨all, found, -⟩ := Option.bind_eq_some_iff.mp read
    exact forall_mem_of_pieces (d := ':') (by decide) (forall_mem_of_groups? found)
  · next before after gap =>
    obtain ⟨first, readBefore, rest⟩ := Option.bind_eq_some_iff.mp read
    obtain ⟨second, readAfter, -⟩ := Option.bind_eq_some_iff.mp rest
    rw [append_of_cutAtGap? gap]
    refine List.forall_mem_append.mpr ⟨forall_mem_of_partGroups? readBefore, ?_⟩
    have colon : isAddressChar ':' = true := by decide
    exact List.forall_mem_cons.mpr ⟨colon,
      List.forall_mem_cons.mpr ⟨colon, forall_mem_of_partGroups? readAfter⟩⟩

theorem forall_mem_of_addressFamily? {family : AddressFamily}
    (known : s.addressFamily? = some family) : ∀ c ∈ s, isAddressChar c = true := by
  rw [addressFamily?] at known
  split at known
  · next quad => exact forall_mem_of_isDottedQuad quad
  · split at known
    · next colons => exact forall_mem_of_isColonAddress colons
    · cases known

/-- An address, a slash and a number of bits that the address has. -/
def IsNetwork (s : Text) : Prop :=
  ∃ (address bits : Text) (family : AddressFamily), s = address ++ '/' :: bits ∧
    address.addressFamily? = some family ∧ bits.isDigits = true ∧ bits.decimalValue ≤ family.bits

/-- No address has more bits than a byte can count. -/
theorem bits_le_greatest (family : AddressFamily) :
    (family.bits : Int) ≤ IntegerRange.unsigned8.greatest := by
  cases family <;> decide

theorem not_mem_of_addressFamily? {family : AddressFamily} (known : s.addressFamily? = some family) :
    '/' ∉ s :=
  fun inside => absurd (forall_mem_of_addressFamily? known '/' inside) (by decide)

theorem isNetwork_iff : s.isNetwork = true ↔ s.IsNetwork := by
  constructor
  · intro accepted
    rw [isNetwork] at accepted
    split at accepted
    · cases accepted
    · next address bits parts =>
      split at accepted
      · cases accepted
      · next family known =>
        rw [Bool.and_eq_true] at accepted
        obtain ⟨row, small⟩ := accepted
        exact ⟨address, bits, family, append_of_cut? parts, known, row,
          (IntegerRange.any_read?_of_isDigits row family.bits (bits_le_greatest family)).mp small⟩
  · rintro ⟨address, bits, family, rfl, known, row, fits⟩
    rw [isNetwork, cut?_append_cons (not_mem_of_addressFamily? known)]
    dsimp only
    rw [known]
    dsimp only
    rw [row, Bool.true_and]
    exact (IntegerRange.any_read?_of_isDigits row family.bits (bits_le_greatest family)).mpr fits

end ProxyConfig.Text

namespace ProxyConfig.Span

variable (a : Span) (line : Nat)

/-- The number that digits write decides, however many they are and whatever range they are read into.
A port is a row of digits up to 65535; greater rows are out of range, and other texts no ports. An
integer is a row of digits behind an optional sign that fits 64 bits. A network is what stands before
its first slash, an address, and behind it a row of digits up to the number of bits of the address. -/
theorem numbers_judged_by_value :
    (a.checkPort line = none ↔ a.text.isDigits = true ∧ a.text.decimalValue ≤ 65535) ∧
    ((a.checkPort line).bind Diagnostic.code = some "LC802" ↔
      a.text.isDigits = true ∧ 65535 < a.text.decimalValue) ∧
    ((a.checkPort line).bind Diagnostic.code = some "LC801" ↔ ¬ a.text.isDigits = true) ∧
    (a.checkInteger line = none ↔ a.text.WritesInt64) ∧
    (a.text.isNetwork = true ↔ ∃ (address bits : Text) (family : AddressFamily),
      a.text = address ++ '/' :: bits ∧ '/' ∉ address ∧ address.addressFamily? = some family ∧
      bits.isDigits = true ∧
      (family = .v4 ∧ bits.decimalValue ≤ 32 ∨ family = .v6 ∧ bits.decimalValue ≤ 128)) := by
  refine ⟨checkPort_eq_none_iff, ?_, ?_, checkInteger_eq_none_iff, ?_⟩
  · rw [code_checkPort]
    split_ifs with row small
    · simp [small]
    · simp [row, Nat.lt_of_not_le small]
    · simp [row]
  · rw [code_checkPort]
    split_ifs with row small
    · simp [row]
    · simp [row]
    · simp [row]
  · rw [Text.isNetwork_iff]
    constructor
    · rintro ⟨address, bits, family, split, known, row, small⟩
      refine ⟨address, bits, family, split, Text.not_mem_of_addressFamily? known, known, row, ?_⟩
      cases family with
      | v4 => exact .inl ⟨rfl, small⟩
      | v6 => exact .inr ⟨rfl, small⟩
    · rintro ⟨address, bits, family, split, -, known, row, ⟨rfl, small⟩ | ⟨rfl, small⟩⟩
      · exact ⟨address, bits, .v4, split, known, row, small⟩
      · exact ⟨address, bits, .v6, split, known, row, small⟩

/-- Leading zeros count for nothing, and nothing wraps around: this is 80 more than 32 bits hold. -/
example : (Span.checkPort ⟨"00000000080".toList, 1⟩ 1).bind Diagnostic.code = none ∧
    (Span.checkPort ⟨"4294967376".toList, 1⟩ 1).bind Diagnostic.code = some "LC802" := by decide

end ProxyConfig.Span
