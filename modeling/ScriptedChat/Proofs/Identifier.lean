import ScriptedChat.Identifier
import ScriptedChat.Message.Block
import ScriptedChat.Proofs.Text.Numeral
import ScriptedChat.Proofs.Text.Search
import ScriptedChat.Proofs.Text.Utf8

/-!
# Identifiers tell apart what they are made from

The bytes that are hashed are the parts with a zero byte after each of them.
A part may have zero characters of its own, so that the bytes do not give every
part back.  They do give back the parts that are numbers and come first.

* `terminated` — the text whose bytes are hashed;
* `numbers_of_terminated` — the numbers at its beginning;
* `NoCollision` — the bytes of some inputs are told apart by the beginning of
  their hash;
* `nodup_stableId` — then their identifiers are all different;
* `stableId_shape` — what an identifier looks like.
-/

namespace ScriptedChat

/-! ## The text whose bytes are hashed -/

/-- The parts with a zero character after each of them. -/
def terminated (parts : List String) : List Char :=
  parts.flatMap fun part => part.toList ++ ['\x00']

theorem terminated_cons (part : String) (parts : List String) :
    terminated (part :: parts) = part.toList ++ '\x00' :: terminated parts := by
  rw [terminated, List.flatMap_cons, List.append_assoc]
  rfl

theorem preimage_eq_encode (parts : List String) :
    preimage parts = Utf8.encode (terminated parts) := by
  induction parts with
  | nil => rfl
  | cons part parts ih =>
    rw [terminated_cons, Utf8.encode_append, Utf8.encode_cons, ← ih, preimage, List.flatMap_cons,
      List.append_assoc]
    rfl

theorem terminated_of_preimage {parts others : List String} (h : preimage parts = preimage others) :
    terminated parts = terminated others := by
  apply Utf8.encode_injective
  rw [← preimage_eq_encode, h, preimage_eq_encode]

/-- **Numbers that come first are given back**, whatever follows them. -/
theorem numbers_of_terminated {ms ns : List Nat} (hlength : ms.length = ns.length)
    {parts others : List String}
    (h : terminated (ms.map Text.natText ++ parts) = terminated (ns.map Text.natText ++ others)) :
    ms = ns := by
  induction ms generalizing ns with
  | nil => exact (List.eq_nil_of_length_eq_zero hlength.symm).symm
  | cons m ms ih =>
    cases ns with
    | nil => exact absurd hlength nofun
    | cons n ns =>
      rw [List.map_cons, List.map_cons, List.cons_append, List.cons_append, terminated_cons,
        terminated_cons, Text.toList_natText, Text.toList_natText] at h
      have hsplit := Text.decimal_append_inj (by decide) h
      rw [hsplit.1, ih (Nat.succ.inj hlength) hsplit.2]

/-! ## Hexadecimal notation -/

theorem hexChar_injective : ∀ m < 16, ∀ n < 16, Json.hexChar m = Json.hexChar n → m = n := by
  decide

theorem hex_cons (b : UInt8) (bytes : List UInt8) :
    Digest.hex (b :: bytes) =
      Json.hexChar (b.toNat / 16) :: Json.hexChar (b.toNat % 16) :: Digest.hex bytes := rfl

theorem hex_injective {bytes others : List UInt8} (h : Digest.hex bytes = Digest.hex others) :
    bytes = others := by
  induction bytes generalizing others with
  | nil =>
    cases others with
    | nil => rfl
    | cons c others => exact absurd h nofun
  | cons b bytes ih =>
    cases others with
    | nil => exact absurd h nofun
    | cons c others =>
      rw [hex_cons, hex_cons, List.cons.injEq, List.cons.injEq] at h
      have hb := b.toNat_lt
      have hc := c.toNat_lt
      have hhigh := hexChar_injective _ (by omega) _ (by omega) h.1
      have hlow := hexChar_injective _ (by omega) _ (by omega) h.2.1
      rw [ih h.2.2, UInt8.toNat_inj.1 (by omega : b.toNat = c.toNat)]

theorem length_hex (bytes : List UInt8) : (Digest.hex bytes).length = 2 * bytes.length := by
  induction bytes with
  | nil => rfl
  | cons b bytes ih => rw [hex_cons, List.length_cons, List.length_cons, ih, List.length_cons]; omega

/-- A hexadecimal digit in lower case. -/
def Digest.isHexDigit (c : Char) : Bool :=
  Text.isDigit c || ('a' ≤ c && c ≤ 'f')

theorem isHexDigit_hexChar : ∀ d < 16, Digest.isHexDigit (Json.hexChar d) = true := by
  decide

theorem isHexDigit_of_mem_hex {bytes : List UInt8} {c : Char} (h : c ∈ Digest.hex bytes) :
    Digest.isHexDigit c = true := by
  induction bytes with
  | nil => exact absurd h nofun
  | cons b bytes ih =>
    have hb := b.toNat_lt
    rw [hex_cons, List.mem_cons, List.mem_cons] at h
    obtain rfl | rfl | h := h
    · exact isHexDigit_hexChar _ (by omega)
    · exact isHexDigit_hexChar _ (by omega)
    · exact ih h

/-! ## Identifiers -/

/-- No two of the inputs have hashes that begin with the same twelve bytes. -/
def NoCollision (inputs : List (List UInt8)) : Prop :=
  ∀ a ∈ inputs, ∀ b ∈ inputs, (Sha256.digest a).take 12 = (Sha256.digest b).take 12 → a = b

instance (inputs : List (List UInt8)) : Decidable (NoCollision inputs) :=
  inferInstanceAs (Decidable (∀ a ∈ inputs, ∀ b ∈ inputs,
    (Sha256.digest a).take 12 = (Sha256.digest b).take 12 → a = b))

theorem toList_stableId (mark : String) (parts : List String) :
    (stableId mark parts).toList =
      mark.toList ++ Digest.hex ((Sha256.digest (preimage parts)).take 12) := by
  rw [stableId, String.toList_append, String.toList_ofList]

/-- **An identifier is its mark and 24 hexadecimal digits.** -/
theorem stableId_shape (mark : String) (parts : List String) :
    ∃ digits, (stableId mark parts).toList = mark.toList ++ digits ∧ digits.length = 24 ∧
      ∀ c ∈ digits, Digest.isHexDigit c = true := by
  refine ⟨_, toList_stableId mark parts, ?_, fun _ => isHexDigit_of_mem_hex⟩
  rw [length_hex, List.length_take, Sha256.length_digest]
  rfl

theorem stableId_ne_empty (mark : String) (parts : List String) : stableId mark parts ≠ "" := by
  obtain ⟨digits, hid, hlength, -⟩ := stableId_shape mark parts
  intro hempty
  rw [hempty] at hid
  have hnil := (List.append_eq_nil_iff.1 hid.symm).2
  rw [hnil] at hlength
  exact absurd hlength nofun

theorem hash_of_stableId {mark : String} {parts others : List String}
    (h : stableId mark parts = stableId mark others) :
    (Sha256.digest (preimage parts)).take 12 = (Sha256.digest (preimage others)).take 12 := by
  have htext := congrArg String.toList h
  rw [toList_stableId, toList_stableId] at htext
  exact hex_injective (List.append_cancel_left htext)

/-- **Inputs without a collision have identifiers that are all different.** -/
theorem nodup_stableId (mark : String) {inputs : List (List String)}
    (hnone : NoCollision (inputs.map preimage)) (hnodup : (inputs.map preimage).Nodup) :
    (inputs.map (stableId mark)).Nodup := by
  have hdistinct : inputs.Pairwise fun parts others => preimage parts ≠ preimage others :=
    List.pairwise_map.1 hnodup
  refine List.pairwise_map.2 (hdistinct.imp_of_mem fun hparts hothers hne hid => hne ?_)
  exact hnone _ (List.mem_map_of_mem hparts) _ (List.mem_map_of_mem hothers) (hash_of_stableId hid)

/-- A message shows the hash of a call under another mark. -/
theorem toolUseId_stableId (parts : List String) :
    Message.toolUseId (stableId "call_" parts) = stableId "toolu_" parts := by
  unfold Message.toolUseId
  rw [toList_stableId, Text.afterFront?_append]
  rfl

end ScriptedChat
