import SteamHandler.Numerals
import SteamHandler.Extraction
import SteamHandler.Recording

/-!
# Comparing keys by their texts

The program compares account keys, program addresses and signers by their
base58 texts. A text is a numeral of base 58 for the numeral of base 256 that
the bytes are, so equal texts mean equal bytes and every comparison of the
program is one of keys. Even the suffix that marks a token is a property of
the bytes: a remainder modulo the fourth power of 58.
-/

namespace SteamHandler.KeyTexts

open Messages Dispatch RaydiumV4 Extraction Recording Numerals Base58

section Texts

/-- The bytes as a numeral of base 256. -/
def octets (bytes : Bytes) : List ℕ := bytes.map UInt8.toNat

/-- The character of a base 58 digit. -/
def symbol (digit : ℕ) : Char := alphabet.getD digit '1'

/-- The digit of a character. -/
def digitOf (character : Char) : ℕ := alphabet.idxOf character

/-- The bytes that a base58 text stands for. -/
def decode (text : String) : Bytes :=
  (changeBase 58 256 (text.toList.map digitOf)).map UInt8.ofNat

theorem isNumeral_octets (bytes : Bytes) : IsNumeral 256 (octets bytes) := by
  intro digit hdigit
  obtain ⟨byte,_,rfl⟩ := List.mem_map.mp hdigit
  exact byte.toNat_lt

/-- The bytes with given octets. -/
theorem octets_ofNat {numeral : List ℕ} (hnumeral : IsNumeral 256 numeral) :
    octets (numeral.map UInt8.ofNat)=numeral := by
  have hround : ∀ digit∈numeral,(UInt8.toNat∘UInt8.ofNat) digit=digit := by
    intro digit hdigit
    exact UInt8.toNat_ofNat_of_lt' (hnumeral digit hdigit)
  rw [octets,List.map_map,List.map_congr_left hround,List.map_id']

theorem ofNat_octets (bytes : Bytes) : (octets bytes).map UInt8.ofNat=bytes := by
  have hround : UInt8.ofNat∘UInt8.toNat=id := funext fun _ => UInt8.ofNat_toNat
  rw [octets,List.map_map,hround,List.map_id]

theorem leadingZeros_octets (bytes : Bytes) :
    leadingZeros (octets bytes)=(bytes.takeWhile (·==0)).length := by
  have hzero : ((·==0) : ℕ → Bool)∘UInt8.toNat=(·==0) := by
    funext byte
    rw [Bool.eq_iff_iff,Function.comp_apply,beq_iff_eq,beq_iff_eq]
    exact ⟨fun h => UInt8.toNat_inj.mp h,fun h => by rw [h]; rfl⟩
  rw [leadingZeros,octets,List.takeWhile_map,hzero,List.length_map]

theorem bigEndian_eq (bytes : Bytes) : bigEndian bytes=value 256 (octets bytes) := by
  rw [value_eq_foldl,octets,List.foldl_map]
  rfl

/-- With enough fuel the encoder writes all digits of the value. -/
theorem digits58_eq {fuel number : ℕ} (henough : number < 58^fuel) (produced : List Char) :
    digits58 fuel number produced=(Nat.digits 58 number).reverse.map symbol++produced := by
  induction fuel generalizing number produced with
  | zero =>
    have hzero : number=0 := by
      rw [Nat.pow_zero] at henough
      omega
    rw [hzero]
    rfl
  | succ fuel ih =>
    rw [digits58]
    split
    · rename_i hzero
      rw [hzero]
      rfl
    · rename_i hnonzero
      have hquotient : number/58 < 58^fuel := by
        rw [Nat.pow_succ] at henough
        exact Nat.div_lt_of_lt_mul (by omega)
      have hdigits : Nat.digits 58 number=number%58::Nat.digits 58 (number/58) :=
        Nat.digits_def' (by omega) (Nat.pos_of_ne_zero hnonzero)
      rw [ih hquotient,hdigits,List.reverse_cons,List.map_append,List.append_assoc]
      rfl

/-- The encoder changes the base of the bytes from 256 to 58. -/
theorem toList_encode (bytes : Bytes) :
    (encode bytes).toList=(changeBase 256 58 (octets bytes)).map symbol := by
  have hlength : (octets bytes).length=bytes.length := List.length_map _
  have henough : value 256 (octets bytes) < 58^(2*bytes.length) := by
    have hlt := value_lt 256 (by omega) (isNumeral_octets bytes)
    have hpow : 256^bytes.length ≤ (58^2)^bytes.length := Nat.pow_le_pow_left (by omega) _
    rw [hlength] at hlt
    rw [Nat.pow_mul]
    omega
  rw [encode,String.toList_ofList,bigEndian_eq,digits58_eq henough,changeBase,numeralOf,
    leadingZeros_octets,List.map_append,List.map_replicate,List.append_nil]
  rfl

theorem alphabet_nodup : alphabet.Nodup := by decide

theorem digitOf_symbol {digit : ℕ} (hdigit : digit < 58) : digitOf (symbol digit)=digit := by
  have hbound : digit < alphabet.length := hdigit
  rw [digitOf,symbol,List.getD_eq_getElem _ _ hbound]
  exact alphabet_nodup.idxOf_getElem digit hbound

theorem symbol_digitOf {character : Char} (h : character∈alphabet) :
    symbol (digitOf character)=character := by
  have hbound : alphabet.idxOf character < alphabet.length := List.idxOf_lt_length_iff.mpr h
  rw [digitOf,symbol,List.getD_eq_getElem _ _ hbound]
  exact List.getElem_idxOf hbound

/-- Decoding undoes encoding. -/
theorem decode_encode (bytes : Bytes) : decode (encode bytes)=bytes := by
  have hdigits : ∀ digit∈changeBase 256 58 (octets bytes),(digitOf∘symbol) digit=digit :=
    fun digit hdigit => digitOf_symbol (isNumeral_changeBase (by omega) _ digit hdigit)
  rw [decode,toList_encode,List.map_map,List.map_congr_left hdigits,List.map_id',
    changeBase_changeBase (by omega) (isNumeral_octets bytes)]
  exact ofNat_octets bytes

/-- A text over the alphabet is the encoding of what it decodes to. -/
theorem encode_decode {text : String} (htext : ∀ character∈text.toList,character∈alphabet) :
    encode (decode text)=text := by
  have hnumeral : IsNumeral 58 (text.toList.map digitOf) := by
    intro digit hdigit
    obtain ⟨character,hcharacter,rfl⟩ := List.mem_map.mp hdigit
    exact List.idxOf_lt_length_iff.mpr (htext character hcharacter)
  have hsymbols : ∀ character∈text.toList,(symbol∘digitOf) character=character :=
    fun character hcharacter => symbol_digitOf (htext character hcharacter)
  refine String.toList_inj.mp ?_
  rw [toList_encode,decode,octets_ofNat (isNumeral_changeBase (by omega) _),
    changeBase_changeBase (by omega) hnumeral,List.map_map,List.map_congr_left hsymbols,
    List.map_id']

theorem encode_injective : Function.Injective encode :=
  Function.LeftInverse.injective decode_encode

/-- Texts have characters of the alphabet only. -/
theorem mem_alphabet_of_encode {bytes : Bytes} {character : Char}
    (h : character∈(encode bytes).toList) : character∈alphabet := by
  rw [toList_encode] at h
  obtain ⟨digit,hdigit,rfl⟩ := List.mem_map.mp h
  have hdigit58 : digit < 58 := isNumeral_changeBase (by omega) _ digit hdigit
  have hbound : digit < alphabet.length := hdigit58
  rw [symbol,List.getD_eq_getElem _ _ hbound]
  exact List.getElem_mem hbound

/-- A text is that of some key in a list when it is well formed and decodes to
one of them. -/
theorem mem_map_encode_iff {text : String} {keys : List Bytes} :
    text∈keys.map encode ↔
      (∀ character∈text.toList,character∈alphabet) ∧ decode text∈keys := by
  constructor
  · intro h
    obtain ⟨key,hkey,rfl⟩ := List.mem_map.mp h
    rw [decode_encode]
    exact ⟨fun _ => mem_alphabet_of_encode,hkey⟩
  · intro ⟨htext,hkey⟩
    exact List.mem_map.mpr ⟨decode text,hkey,encode_decode htext⟩

theorem encode_mem_map_iff {key : Bytes} {keys : List Bytes} :
    encode key∈keys.map encode ↔ key∈keys := List.mem_map_of_injective encode_injective

end Texts

section Suffixes

/-- The digits of `pump`. -/
def tokenEnding : List ℕ := [47,52,44,47]

/-- The remainder modulo the fourth power of 58 of a key whose text ends in
`pump`. -/
def tokenRemainder : ℕ := 9347791

/-- The key has the text of a token. -/
def isTokenKey (key : Bytes) : Bool := decide (bigEndian key%58^4=tokenRemainder)

theorem map_symbol_tokenEnding : tokenEnding.map symbol="pump".toList := by decide

theorem isNumeral_tokenEnding : IsNumeral 58 tokenEnding := by
  intro digit hdigit
  fin_cases hdigit <;> omega

/-- Endings of texts are endings of numerals. -/
theorem suffix_map_symbol {ending numeral : List ℕ} (hending : IsNumeral 58 ending)
    (hnumeral : IsNumeral 58 numeral) :
    ending.map symbol<:+numeral.map symbol ↔ ending<:+numeral := by
  have hback : ∀ {digits : List ℕ},IsNumeral 58 digits → (digits.map symbol).map digitOf=digits := by
    intro digits hdigits
    have hround : ∀ digit∈digits,(digitOf∘symbol) digit=digit :=
      fun digit hdigit => digitOf_symbol (hdigits digit hdigit)
    rw [List.map_map,List.map_congr_left hround,List.map_id']
  constructor
  · intro h
    have hdigits := h.map digitOf
    rw [hback hending,hback hnumeral] at hdigits
    exact hdigits
  · exact fun h => h.map symbol

/-- The suffix test of the monitor is a test of the bytes. -/
theorem endsWith_pump_eq (key : Bytes) : endsWith (encode key) "pump"=isTokenKey key := by
  have hnumeral : IsNumeral 58 (changeBase 256 58 (octets key)) :=
    isNumeral_changeBase (by omega) (octets key)
  have hvalue : value 58 (changeBase 256 58 (octets key))=bigEndian key := by
    rw [changeBase,value_numeralOf,bigEndian_eq]
  have hleading : ∀ first rest,tokenEnding=first::rest → first≠0 := by
    intro first rest hsplit
    obtain ⟨rfl,_⟩ := List.cons.inj hsplit
    omega
  have hending : value 58 tokenEnding=tokenRemainder := by
    rw [value_eq_foldl]
    rfl
  have hmod := suffix_iff_mod (by omega) hnumeral isNumeral_tokenEnding hleading
  rw [hvalue,hending] at hmod
  rw [endsWith,isTokenKey,decide_eq_decide,toList_encode,←map_symbol_tokenEnding,
    suffix_map_symbol isNumeral_tokenEnding hnumeral]
  exact hmod

end Suffixes

section Signatures

/-- No text is the mark of an unreadable signature. -/
theorem encode_ne_invalid (bytes : Bytes) : encode bytes≠"invalid-signature" := by
  intro h
  have hdash : '-'∈(encode bytes).toList := by
    rw [h]
    decide
  exact absurd (mem_alphabet_of_encode hdash) (by decide)

/-- The signature column tells signatures apart, unless neither is one. -/
theorem signatureColumn_eq_iff (first second : Bytes) :
    signatureColumn encode first=signatureColumn encode second ↔
      first=second ∨ (first.length≠64 ∧ second.length≠64) := by
  unfold signatureColumn
  by_cases hfirst : first.length=64 <;> by_cases hsecond : second.length=64
  · rw [if_pos hfirst,if_pos hsecond]
    exact ⟨fun h => Or.inl (encode_injective h),
      fun h => h.elim (congrArg encode) fun hboth => absurd hfirst hboth.1⟩
  · rw [if_pos hfirst,if_neg hsecond]
    refine ⟨fun h => absurd h (encode_ne_invalid first),fun h => ?_⟩
    rcases h with rfl|hboth
    · exact absurd hfirst hsecond
    · exact absurd hfirst hboth.1
  · rw [if_neg hfirst,if_pos hsecond]
    refine ⟨fun h => absurd h.symm (encode_ne_invalid second),fun h => ?_⟩
    rcases h with rfl|hboth
    · exact absurd hsecond hfirst
    · exact absurd hsecond hboth.2
  · rw [if_neg hfirst,if_neg hsecond]
    exact ⟨fun _ => Or.inr ⟨hfirst,hsecond⟩,fun _ => rfl⟩

end Signatures

end SteamHandler.KeyTexts
