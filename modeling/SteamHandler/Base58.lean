import SteamHandler.Messages

/-!
# A concrete base58 encoder

The program takes base58 text from an external encoder, and the development is
parametric in it. This is the published algorithm, for evaluating the model on
concrete inputs: one digit `1` for each leading zero byte, then the base 58
digits of the bytes read as a big-endian number.
-/

namespace SteamHandler.Base58

open Messages

/-- Digits and letters without `0`, `O`, `I` and `l`. -/
def alphabet : List Char :=
  "123456789ABCDEFGHJKLMNPQRSTUVWXYZabcdefghijkmnopqrstuvwxyz".toList

/-- The number whose big-endian bytes are given. -/
def bigEndian (bytes : Bytes) : ℕ := bytes.foldl (fun value byte => value*256+byte.toNat) 0

/-- Base 58 digits, most significant first, appended in front of those already
produced. Two digits for each byte are always enough fuel. -/
def digits58 : ℕ → ℕ → List Char → List Char
  | 0,_,produced => produced
  | fuel+1,value,produced =>
    if value=0 then produced
    else digits58 fuel (value/58) (alphabet.getD (value%58) '1'::produced)

/-- Base58 text of a byte string. -/
def encode (bytes : Bytes) : String :=
  String.ofList (List.replicate (bytes.takeWhile (·==0)).length '1'++
    digits58 (2*bytes.length) (bigEndian bytes) [])

example : encode (List.replicate 3 0)="111" := by decide

end SteamHandler.Base58
