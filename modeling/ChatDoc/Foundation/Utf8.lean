import Mathlib.Data.List.Basic

/-!
# UTF-8

Encoding a text, and the streaming decoder of the browser's `TextDecoder`.  It
keeps what it has of a character between two chunks, puts U+FFFD for bytes that
are none, and drops a byte order mark at the start.
-/

namespace Foundation

/-- `text.encode()`. -/
def encode (text : List Char) : List UInt8 := text.flatMap String.utf8EncodeChar

/-!
# The decoder
-/

structure Utf8Decoder where
  codePoint : Nat
  bytesSeen : Nat
  bytesNeeded : Nat
  lower : Nat
  upper : Nat

namespace Utf8Decoder

def fresh : Utf8Decoder where
  codePoint := 0
  bytesSeen := 0
  bytesNeeded := 0
  lower := 0x80
  upper := 0xBF

def replacement : Char := '\ufffd'

def lead (b : Nat) : Utf8Decoder × List Char :=
  if b ≤ 0x7F then (fresh, [Char.ofNat b])
  else if 0xC2 ≤ b ∧ b ≤ 0xDF then
    ({ fresh with bytesNeeded := 1, codePoint := b % 0x20 }, [])
  else if 0xE0 ≤ b ∧ b ≤ 0xEF then
    ({ fresh with
        lower := if b = 0xE0 then 0xA0 else 0x80
        upper := if b = 0xED then 0x9F else 0xBF
        bytesNeeded := 2
        codePoint := b % 0x10 }, [])
  else if 0xF0 ≤ b ∧ b ≤ 0xF4 then
    ({ fresh with
        lower := if b = 0xF0 then 0x90 else 0x80
        upper := if b = 0xF4 then 0x8F else 0xBF
        bytesNeeded := 3
        codePoint := b % 0x08 }, [])
  else (fresh, [replacement])

def step (d : Utf8Decoder) (b : Nat) : Utf8Decoder × List Char :=
  if d.bytesNeeded = 0 then lead b
  else if b < d.lower ∨ d.upper < b then
    let out := lead b
    (out.1, replacement :: out.2)
  else
    let codePoint := d.codePoint * 0x40 + b % 0x40
    if d.bytesSeen + 1 = d.bytesNeeded then (fresh, [Char.ofNat codePoint])
    else
      ({ d with
          codePoint := codePoint
          bytesSeen := d.bytesSeen + 1
          lower := 0x80
          upper := 0xBF }, [])

def decodeBytes (d : Utf8Decoder) : List UInt8 -> Utf8Decoder × List Char
  | [] => (d, [])
  | b :: rest =>
      let out := d.step b.toNat
      let more := out.1.decodeBytes rest
      (more.1, out.2 ++ more.2)

theorem decodeBytes_append (d : Utf8Decoder) (bytes more : List UInt8) :
    d.decodeBytes (bytes ++ more) =
      (((d.decodeBytes bytes).1.decodeBytes more).1,
        (d.decodeBytes bytes).2 ++ ((d.decodeBytes bytes).1.decodeBytes more).2) := by
  induction bytes generalizing d with
  | nil => rfl
  | cons b bytes ih =>
      rw [List.cons_append, decodeBytes, ih, decodeBytes]
      dsimp only
      rw [List.append_assoc]

end Utf8Decoder

structure TextDecoder where
  bomSeen : Bool
  decoder : Utf8Decoder

namespace TextDecoder

def fresh : TextDecoder := ⟨false, .fresh⟩

def dropBom : Bool -> List Char -> Bool × List Char
  | false, c :: text => if c = '\ufeff' then (true, text) else (true, c :: text)
  | bomSeen, text => (bomSeen, text)

/-- `decoder.decode(chunk)` in the streaming mode. -/
def decode (d : TextDecoder) (chunk : List UInt8) : TextDecoder × List Char :=
  let out := d.decoder.decodeBytes chunk
  let text := dropBom d.bomSeen out.2
  (⟨text.1, out.1⟩, text.2)

theorem dropBom_true (text : List Char) : dropBom true text = (true, text) := by
  cases text <;> rfl

theorem dropBom_append (bomSeen : Bool) (text more : List Char) :
    dropBom bomSeen (text ++ more) =
      ((dropBom (dropBom bomSeen text).1 more).1,
        (dropBom bomSeen text).2 ++ (dropBom (dropBom bomSeen text).1 more).2) := by
  cases bomSeen with
  | true => rw [dropBom_true, dropBom_true, dropBom_true]
  | false =>
      cases text with
      | nil => rfl
      | cons c text =>
          rw [List.cons_append]
          unfold dropBom
          dsimp only
          split
          next => cases more <;> rfl
          next => cases more <;> rfl

theorem decode_append (d : TextDecoder) (chunk more : List UInt8) :
    d.decode (chunk ++ more) =
      (((d.decode chunk).1.decode more).1,
        (d.decode chunk).2 ++ ((d.decode chunk).1.decode more).2) := by
  unfold decode
  rw [Utf8Decoder.decodeBytes_append]
  dsimp only
  rw [dropBom_append]

end TextDecoder

/-!
# Texts in ASCII
-/

def Ascii (text : List Char) : Prop := forall c, c ∈ text -> c.toNat ≤ 0x7F

theorem ascii_append {text more : List Char} :
    Ascii (text ++ more) <-> Ascii text ∧ Ascii more :=
  List.forall_mem_append

theorem encode_ascii {text : List Char} (h : Ascii text) :
    encode text = text.map fun c => UInt8.ofNat c.toNat := by
  induction text with
  | nil => rfl
  | cons c text ih =>
      have hchar : String.utf8EncodeChar c = [UInt8.ofNat c.toNat] :=
        if_pos (h c List.mem_cons_self)
      have hrest := ih fun d hd => h d (List.mem_cons_of_mem _ hd)
      unfold encode at hrest ⊢
      rw [List.flatMap_cons, hchar, hrest]
      rfl

theorem decodeBytes_encode {d : Utf8Decoder} {text : List Char} (h : Ascii text)
    (hd : d.bytesNeeded = 0) : (d.decodeBytes (encode text)).2 = text := by
  rw [encode_ascii h]
  induction text generalizing d with
  | nil => rfl
  | cons c text ih =>
      have hc := h c List.mem_cons_self
      have hbyte : (UInt8.ofNat c.toNat).toNat = c.toNat := by
        rw [UInt8.toNat_ofNat']
        omega
      have hstep : d.step c.toNat = (.fresh, [c]) := by
        unfold Utf8Decoder.step Utf8Decoder.lead
        rw [if_pos hd, if_pos hc, Char.ofNat_toNat]
      rw [List.map_cons, Utf8Decoder.decodeBytes, hbyte, hstep]
      dsimp only
      rw [ih (fun c hc => h c (List.mem_cons_of_mem _ hc)) rfl]
      rfl

theorem decode_encode {text : List Char} (h : Ascii text) :
    (TextDecoder.fresh.decode (encode text)).2 = text := by
  unfold TextDecoder.decode TextDecoder.fresh
  dsimp only
  rw [decodeBytes_encode h rfl]
  cases text with
  | nil => rfl
  | cons c text =>
      have hc := h c List.mem_cons_self
      unfold TextDecoder.dropBom
      dsimp only
      rw [if_neg]
      intro heq
      rw [heq] at hc
      exact absurd hc (by decide)

end Foundation
