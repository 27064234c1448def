import Lector.Presentation.Retained

/-! Base64 on its way out: the clipboard sequence (`osc52_write` in `src/clipboard.rs`) and the chunks of
an upload (`write_kitty_upload` in `src/presentation.rs`). -/
namespace Lector.Clipboard
open Base64 Presentation List UInt8

/-! ## Clipboard -/

def osc52Prefix : Bytes := ascii "\x1b]52;c;"

def osc52Suffix : Bytes := ascii "\x1b\\"

/-- One chunk in the clipboard's own `encode_base64`, whose shifts are of bytes. -/
def encodeChunk (chunk : Bytes) : Bytes :=
  let first := chunk.getD 0 0
  let second := chunk.getD 1 0
  let third := chunk.getD 2 0
  [letter (first >>> 2).toNat, letter ((first &&& 0x03) <<< 4 ||| second >>> 4).toNat] ++
    (if 1 < chunk.length then [letter ((second &&& 0x0f) <<< 2 ||| third >>> 6).toNat] else [padding]) ++
    if 2 < chunk.length then [letter (third &&& 0x3f).toNat] else [padding]

def encodeBase64 (input : Bytes) : Bytes := (chunks 3 input.length input).flatMap encodeChunk

def osc52Write (text : Bytes) : Bytes := osc52Prefix ++ encodeBase64 text ++ osc52Suffix

/-! ## One encoding -/

theorem toNat_straddle {a : UInt8} {k : Nat} (b : UInt8) (hk : k < 8) (ha : a.toNat < 2 ^ (8 - k)) :
    (a <<< ofNat k ||| b).toNat = a.toNat <<< k ||| b.toNat := by
  have hmod : (ofNat k).toNat % 8 = k := by
    rw [toNat_ofNat_of_lt' (by simp [size]; omega), Nat.mod_eq_of_lt hk]
  rw [UInt8.toNat_or, UInt8.toNat_shiftLeft, hmod, Nat.mod_eq_of_lt]
  rw [Nat.shiftLeft_eq]
  calc a.toNat * 2 ^ k < 2 ^ (8 - k) * 2 ^ k := mul_lt_mul_of_pos_right ha (Nat.two_pow_pos k)
    _ = 2 ^ 8 := by rw [← pow_add, Nat.sub_add_cancel hk.le]

theorem encodeChunk_eq (chunk : Bytes) : encodeChunk chunk = encodeGroup chunk := by
  have hlow (a b : UInt8) :
      ((a &&& 3) <<< 4 ||| b >>> 4).toNat = (a.toNat &&& 3) <<< 4 ||| b.toNat >>> 4 := by
    have ha : (a &&& 3).toNat < 2 ^ 4 := by
      exact (and_le_right).trans_lt (by decide)
    have h := toNat_straddle (b >>> 4) (by decide : 4 < 8) ha
    rwa [UInt8.toNat_and, UInt8.toNat_shiftRight] at h
  have hmiddle (b c : UInt8) :
      ((b &&& 0x0f) <<< 2 ||| c >>> 6).toNat = (b.toNat &&& 0x0f) <<< 2 ||| c.toNat >>> 6 := by
    have hb : (b &&& 0x0f).toNat < 2 ^ 6 := by
      exact (and_le_right).trans_lt (by decide)
    have h := toNat_straddle (c >>> 6) (by decide : 2 < 8) hb
    rwa [UInt8.toNat_and, UInt8.toNat_shiftRight] at h
  simp only [encodeChunk, encodeGroup, hlow, hmiddle]
  split <;> split <;> rfl

theorem flatMap_encodeChunk (fuel : Nat) (input : Bytes) (h : input.length ≤ fuel) :
    (chunks 3 fuel input).flatMap encodeChunk = encode input := by
  induction fuel generalizing input with
  | zero =>
    rw [eq_nil_of_length_eq_zero (Nat.le_zero.mp h)]
    rfl
  | succ fuel ih =>
    match input with
    | [] => rfl
    | a :: b :: c :: rest =>
      have hrest := ih rest (by simp only [length_cons] at h; omega)
      rw [chunks, if_neg (by simp), flatMap_cons, encodeChunk_eq]
      exact congrArg _ hrest
    | [a] | [a, b] =>
      rw [chunks, if_neg (by simp), flatMap_cons, encodeChunk_eq]
      have hrest := ih [] (Nat.zero_le _)
      exact (congrArg _ hrest).trans (append_nil _)

theorem encodeBase64_eq (input : Bytes) : encodeBase64 input = encode input :=
  flatMap_encodeChunk _ input le_rfl

/-! ## Printable text -/

def printable (byte : UInt8) : Bool := 0x20 ≤ byte && byte < 0x7f

theorem letter_printable {n : Nat} (h : n < 64) : printable (letter n) := by
  revert n
  decide +kernel

theorem encodeGroup_printable (group : Bytes) : ∀ byte ∈ encodeGroup group, printable byte := by
  have ha := (group.getD 0 0).toNat_lt
  have hb := (group.getD 1 0).toNat_lt
  have hlow : (group.getD 2 0).toNat &&& 0x3f < 64 := (Nat.and_le_right).trans_lt (by decide)
  intro byte hbyte
  simp only [encodeGroup, second_sextet, third_sextet, mem_cons, not_mem_nil, or_false] at hbyte
  have hc := (group.getD 2 0).toNat_lt
  rcases hbyte with rfl | rfl | rfl | rfl
  · exact letter_printable (by omega)
  · exact letter_printable (by omega)
  · split
    · exact letter_printable (by omega)
    · rfl
  · split
    · exact letter_printable hlow
    · rfl

theorem encode_printable (input : Bytes) : ∀ byte ∈ encode input, printable byte := by
  induction input using encode.induct with
  | case1 a b c rest ih =>
    rw [encode, forall_mem_append]
    exact ⟨encodeGroup_printable _, ih⟩
  | case2 => exact forall_mem_nil _
  | case3 group hthree hnil =>
    rw [encode]
    · exact encodeGroup_printable group
    · exact hthree
    · exact hnil

end Lector.Clipboard

namespace Lector.Presentation
open List

/-! ## Chunks of an upload -/

theorem length_chunks_le {size : Nat} (fuel : Nat) (bytes : Bytes) :
    ∀ chunk ∈ chunks size fuel bytes, chunk.length ≤ size := by
  induction fuel generalizing bytes with
  | zero => exact forall_mem_nil _
  | succ fuel ih =>
    rw [chunks]
    split
    · exact forall_mem_nil _
    · exact forall_mem_cons.mpr ⟨length_take_le _ _, ih _⟩

theorem chunks_full {size : Nat} (fuel : Nat) (bytes : Bytes) :
    ∀ chunk ∈ (chunks size fuel bytes).dropLast, chunk.length = size := by
  induction fuel generalizing bytes with
  | zero => exact forall_mem_nil _
  | succ fuel ih =>
    rw [chunks]
    split
    · exact forall_mem_nil _
    · cases hrest : chunks size fuel (bytes.drop size) with
      | nil => exact forall_mem_nil _
      | cons next rest =>
        refine forall_mem_cons.mpr ⟨?_, hrest ▸ ih _⟩
        rw [length_take]
        by_contra hshort
        -- nothing is left to be cut again
        rw [drop_eq_nil_of_le (by omega)] at hrest
        cases fuel <;> cases hrest

theorem payloadChunks_sizes (data : Bytes) :
    (∀ chunk ∈ payloadChunks data, chunk.length ≤ kittyBase64ChunkBytes) ∧
      ∀ chunk ∈ (payloadChunks data).dropLast, chunk.length % 4 = 0 := by
  rw [payloadChunks]
  split
  · exact ⟨by simp, forall_mem_nil _⟩
  · refine ⟨length_chunks_le _ _, fun chunk hchunk => ?_⟩
    rw [chunks_full _ _ chunk hchunk]
    rfl

theorem sendChunks_getElem? (pieces : List Bytes) (i : Nat) : (sendChunks pieces)[i]? =
    pieces[i]?.map (GraphicsCommand.transmitMore (decide (i + 1 < pieces.length))) := by
  induction pieces generalizing i with
  | nil => rfl
  | cons piece rest ih =>
    cases i with
    | zero => cases rest <;> simp [sendChunks]
    | succ i => simp [sendChunks, ih]

/-- The command that carries chunk `index` of `total`. -/
def chunkCommand (imageId : UInt32) (upload : SceneImageUpload) (total index : Nat) (chunk : Bytes) :
    GraphicsCommand :=
  let more := decide (index + 1 < total)
  if index = 0 then
    .transmit (kittyFormat upload.format) upload.pixelWidth upload.pixelHeight imageId more chunk
  else .transmitMore more chunk

theorem writeKittyUpload_getElem? (imageId : UInt32) (upload : SceneImageUpload) (i : Nat) :
    (writeKittyUpload imageId upload)[i]? = (payloadChunks upload.data)[i]?.map
      (chunkCommand imageId upload (payloadChunks upload.data).length i) := by
  rw [writeKittyUpload]
  cases payloadChunks upload.data with
  | nil => rfl
  | cons first rest =>
    cases i with
    | zero => cases rest <;> simp [chunkCommand]
    | succ i =>
      simp only [getElem?_cons_succ, sendChunks_getElem?]
      congr 1
      funext chunk
      simp [chunkCommand]

/-- **What is encoded for the clipboard or for an upload is decoded again, is printable on the clipboard's
way, and is cut for an upload into full chunks, all but the last flagged, the first with the header.** -/
theorem transport_roundTrip : (∀ bytes, Base64.decode (Base64.encode bytes) = some bytes ∧
      Clipboard.encodeBase64 bytes = Base64.encode bytes) ∧
    (∀ text, ∃ body, Clipboard.osc52Write text = ascii "\x1b]" ++ body ++ ascii "\x1b\\" ∧
      ∀ byte ∈ body, Clipboard.printable byte) ∧
    ∀ imageId upload, ∃ chunks, chunks.flatten = Base64.encode upload.data ∧ chunks ≠ [] ∧
      (∀ chunk ∈ chunks, chunk.length ≤ kittyBase64ChunkBytes) ∧
      (∀ chunk ∈ chunks.dropLast, chunk.length % 4 = 0) ∧
      ∀ i : Nat, (writeKittyUpload imageId upload)[i]? =
        chunks[i]?.map (chunkCommand imageId upload chunks.length i) := by
  refine ⟨fun bytes => ⟨Base64.decode_encode bytes, Clipboard.encodeBase64_eq bytes⟩,
    fun text => ⟨ascii "52;c;" ++ Clipboard.encodeBase64 text, ?_, ?_⟩, fun imageId upload => ?_⟩
  · rfl
  · rw [Clipboard.encodeBase64_eq, forall_mem_append]
    refine ⟨?_, Clipboard.encode_printable text⟩
    decide +kernel
  · obtain ⟨hne, hflatten⟩ := payloadChunks_spec upload.data
    obtain ⟨hsizes, hfull⟩ := payloadChunks_sizes upload.data
    exact ⟨_, hflatten, hne, hsizes, hfull, writeKittyUpload_getElem? imageId upload⟩

end Lector.Presentation
