import HierarchyAccessors.Disk.Basic
import HierarchyAccessors.Manifest
import HierarchyAccessors.Proofs.Snapshot.RoundTrip
import Mathlib.Data.List.Nodup

/-!
# What a cache key tells apart

Every step from a snapshot to its cache key can be undone but for the digests: the canonical text
determines the snapshot, the bytes of a text the text, and hexadecimal digits the bytes. As long as
no two of the digested byte strings have one digest, equal keys therefore mean equal snapshots
(`eq_of_cacheKey_eq`).
-/

namespace HierarchyAccessors

/-! ## The bytes of texts -/

theorem reverse_append_of_loop (bytes : ByteArray) (i : Nat) (before : List UInt8) :
    ByteArray.toList.loop bytes i before = before.reverse ++ bytes.data.toList.drop i := by
  fun_induction ByteArray.toList.loop bytes i before with
  | case1 i before more ih =>
    have inside : i < bytes.data.toList.length := more
    have first : bytes.get! i = bytes.data.toList[i] := getElem!_pos bytes.data i more
    rw [ih, List.drop_eq_getElem_cons inside, first, List.reverse_cons, List.append_assoc]
    rfl
  | case2 i before done =>
    have outside : bytes.data.toList.length ≤ i := Nat.le_of_not_lt done
    rw [List.drop_eq_nil_of_le outside, List.append_nil]

theorem byteArray_toList_eq (bytes : ByteArray) : bytes.toList = bytes.data.toList := by
  rw [ByteArray.toList, reverse_append_of_loop]
  rfl

theorem toUTF8_toList_inj {s t : String} : s.toUTF8.toList = t.toUTF8.toList ↔ s = t := by
  rw [byteArray_toList_eq, byteArray_toList_eq, Array.toList_inj]
  refine ⟨fun h => ?_, fun h => by rw [h]⟩
  exact String.toByteArray_inj.1 (ByteArray.ext h)

theorem toUTF8_toList (s : String) :
    s.toUTF8.toList = s.toList.flatMap String.utf8EncodeChar := by
  show s.toByteArray.toList = _
  rw [← String.utf8Encode_toList, List.utf8Encode, byteArray_toList_eq]
  simp

/-- The bytes of a text are read as that text. -/
theorem Disk.textOf_bytesOf (text : String) : Disk.textOf (Disk.bytesOf text) = .ok text := by
  have same : (⟨(Disk.bytesOf text).toArray⟩ : ByteArray) = text.toByteArray := by
    rw [Disk.bytesOf, byteArray_toList_eq, Array.toArray_toList]
    rfl
  rw [Disk.textOf, same, String.fromUTF8?, dif_pos text.isValidUTF8]
  rfl

/-! ## Texts without zeros -/

/-- No character of the text is zero. -/
def ZeroFree (s : String) : Prop := '\x00' ∉ s.toList

/-- Only the zero character has a zero among its bytes. -/
theorem zero_not_mem_utf8EncodeChar {c : Char} (h : c ≠ '\x00') :
    0 ∉ String.utf8EncodeChar c := by
  have positive : c.val.toNat ≠ 0 := by
    intro zero
    exact h (Char.ext (UInt32.toNat_inj.1 zero))
  have nonzero {n : Nat} (pos : n ≠ 0) (small : n < 256) : (0 : UInt8) ≠ UInt8.ofNat n := by
    intro zero
    have same := congrArg UInt8.toNat zero
    rw [UInt8.toNat_ofNat_of_lt' small] at same
    exact pos same.symm
  intro mem
  rw [String.utf8EncodeChar.eq_1] at mem
  split_ifs at mem <;> simp only [List.mem_cons, List.not_mem_nil, or_false] at mem
  · exact nonzero positive (by omega) mem
  · rcases mem with mem | mem <;> exact nonzero (by omega) (by omega) mem
  · rcases mem with mem | mem | mem <;> exact nonzero (by omega) (by omega) mem
  · rcases mem with mem | mem | mem | mem <;> exact nonzero (by omega) (by omega) mem

theorem ZeroFree.not_mem_toUTF8 {s : String} (h : ZeroFree s) : 0 ∉ s.toUTF8.toList := by
  rw [toUTF8_toList, List.mem_flatMap]
  rintro ⟨c, hc, zero⟩
  refine zero_not_mem_utf8EncodeChar ?_ zero
  rintro rfl
  exact h hc

/-- Parts that are each followed by a zero can be told apart again. -/
theorem splitOn_terminated {parts : List (List UInt8)} (h : ∀ part ∈ parts, 0 ∉ part) :
    (parts.flatMap (· ++ [0])).splitOn 0 = parts ++ [[]] := by
  induction parts with
  | nil => rfl
  | cons part parts ih =>
    obtain ⟨first, rest⟩ := List.forall_mem_cons.1 h
    rw [List.flatMap_cons, List.append_assoc, List.singleton_append, List.splitOn_append_cons_self,
      List.splitOn_eq_singleton first, ih rest]
    rfl

/-! ## Hexadecimal digits -/

theorem digitChar_inj {m n : Nat} (hm : m < 16) (hn : n < 16)
    (h : Nat.digitChar m = Nat.digitChar n) : m = n := by
  have := congrArg Text.hexDigit? h
  rwa [Text.hexDigit?_digitChar hm, Text.hexDigit?_digitChar hn, Option.some_inj] at this

/-- The digits of bytes determine the bytes. -/
theorem hex_inj {as bs : List UInt8} : Digest.hex as = Digest.hex bs ↔ as = bs := by
  refine ⟨fun h => ?_, fun h => by rw [h]⟩
  unfold Digest.hex at h
  have digits := String.ofList_injective h
  clear h
  induction as generalizing bs with
  | nil =>
    cases bs with
    | nil => rfl
    | cons b bs => cases digits
  | cons a as ih =>
    cases bs with
    | nil => cases digits
    | cons b bs =>
      simp only [List.flatMap_cons, List.cons_append, List.nil_append, List.cons.injEq] at digits
      obtain ⟨high, low, rest⟩ := digits
      have ha := a.toNat_lt
      have hb := b.toNat_lt
      have quotient := digitChar_inj (by omega) (by omega) high
      have remainder := digitChar_inj (by omega) (by omega) low
      have same : a = b := UInt8.toNat_inj.1 (by omega)
      rw [same, ih rest]

theorem zeroFree_hex (bytes : List UInt8) : ZeroFree (Digest.hex bytes) := by
  unfold ZeroFree Digest.hex
  rw [String.toList_ofList, List.mem_flatMap]
  rintro ⟨b, -, digit⟩
  have nonzero {n : Nat} (small : n < 16) : '\x00' ≠ Nat.digitChar n := by
    intro zero
    have value := Text.hexDigit?_digitChar small
    rw [← zero] at value
    cases value
  have inRange := b.toNat_lt
  simp only [List.mem_cons, List.not_mem_nil, or_false] at digit
  rcases digit with high | low
  · exact nonzero (by omega) high
  · exact nonzero (by omega) low

/-! ## Canonical texts -/

/-- A snapshot is determined by its canonical text. -/
theorem Snapshot.canonical_inj {s t : Snapshot} : s.canonical = t.canonical ↔ s = t := by
  refine ⟨fun h => ?_, fun h => by rw [h]⟩
  have tokens : s.encode.tokens = t.encode.tokens := by
    rw [← Json.Value.tokens_compact, ← Json.Value.tokens_compact]
    exact congrArg (fun text => Json.tokens text.toList) h
  have trees : s.encode.toTree = t.encode.toTree := by
    have := congrArg Json.Tree.ofTokens tokens
    rw [Json.Value.ofTokens_tokens, Json.Value.ofTokens_tokens] at this
    exact (Prod.mk.inj this).1
  -- Enough depth for both makes the limit of the format immaterial.
  have left := s.reads_snapshot (max s.encode.nesting t.encode.nesting)
  have right := t.reads_snapshot (max s.encode.nesting t.encode.nesting)
  unfold Json.Reader.ReadsAt Json.Reader.room at left right
  rw [if_pos (Nat.le_max_left ..)] at left
  rw [if_pos (Nat.le_max_right ..), ← trees, left] at right
  exact Except.ok.inj right

/-! ## Cache keys -/

/-- The byte strings that are digested for the cache key of a run on the snapshot. -/
def Snapshot.digested (s : Snapshot) : List (List UInt8) :=
  [s.canonical.toUTF8.toList, CacheKey.bytes ⟨s.fingerprint, toolVersion, Schema.version⟩]

/-- No two of the byte strings have one digest. -/
def Collisionless (messages : List (List UInt8)) : Prop :=
  ∀ a ∈ messages, ∀ b ∈ messages, Digest.sha256 a = Digest.sha256 b → a = b

/-- Texts with different digests do not collide. -/
theorem collisionless_of_nodup {read : List Snapshot}
    (h : (read.flatMap fun s => [s.fingerprint, s.cacheKey]).Nodup) :
    Collisionless (read.flatMap Snapshot.digested) := by
  have digests : (read.flatMap fun s => [s.fingerprint, s.cacheKey]) =
      ((read.flatMap Snapshot.digested).map Digest.sha256).map Digest.hex := by
    simp only [List.map_flatMap]
    rfl
  rw [digests] at h
  intro a ha b hb same
  exact List.inj_on_of_nodup_map h.of_map ha hb same

theorem Collisionless.mono {read more : List Snapshot}
    (h : Collisionless (more.flatMap Snapshot.digested)) (sub : read ⊆ more) :
    Collisionless (read.flatMap Snapshot.digested) := by
  have known {a : List UInt8} (ha : a ∈ read.flatMap Snapshot.digested) :
      a ∈ more.flatMap Snapshot.digested := by
    obtain ⟨s, hs, ha⟩ := List.mem_flatMap.1 ha
    exact List.mem_flatMap.2 ⟨s, sub hs, ha⟩
  exact fun a ha b hb => h a (known ha) b (known hb)

/-- None of the texts in the key has a zero in it. -/
structure CacheKey.WellFormed (key : CacheKey) : Prop where
  fingerprint : ZeroFree key.fingerprint
  tool : ZeroFree key.tool
  schema : ZeroFree key.schema

/-- A zero ends each text, so the bytes determine the texts. -/
theorem CacheKey.bytes_inj {key key' : CacheKey} (wf : key.WellFormed) (wf' : key'.WellFormed) :
    key.bytes = key'.bytes ↔ key = key' := by
  refine ⟨fun h => ?_, fun h => by rw [h]⟩
  have split (key : CacheKey) (wf : key.WellFormed) : key.bytes.splitOn 0 =
      [key.fingerprint, key.tool, key.schema].map (·.toUTF8.toList) ++ [[]] := by
    have terminated : key.bytes = ([key.fingerprint, key.tool, key.schema].map
        (·.toUTF8.toList)).flatMap (· ++ [0]) := by
      rw [bytes, List.flatMap_map]
    rw [terminated]
    apply splitOn_terminated
    simp only [List.forall_mem_map, List.forall_mem_cons]
    exact ⟨wf.fingerprint.not_mem_toUTF8, wf.tool.not_mem_toUTF8, wf.schema.not_mem_toUTF8,
      by simp⟩
  have parts := congrArg (List.splitOn 0) h
  rw [split key wf, split key' wf', List.append_cancel_right_eq] at parts
  simp only [List.map_cons, List.map_nil, List.cons.injEq, toUTF8_toList_inj, and_true] at parts
  obtain ⟨fingerprint, tool, schema⟩ := parts
  cases key
  cases key'
  exact congr (congr (congrArg CacheKey.mk fingerprint) tool) schema

theorem Snapshot.wellFormed_key (s : Snapshot) {tool schema : String} (htool : ZeroFree tool)
    (hschema : ZeroFree schema) : CacheKey.WellFormed ⟨s.fingerprint, tool, schema⟩ :=
  ⟨zeroFree_hex _, htool, hschema⟩

theorem zeroFree_versions : ZeroFree toolVersion ∧ ZeroFree Schema.version := by
  constructor <;> unfold ZeroFree <;> decide

/-- **Equal keys mean equal snapshots**, unless two of the digested byte strings collide. -/
theorem Snapshot.eq_of_cacheKey_eq {s t : Snapshot} {messages : List (List UInt8)}
    (distinct : Collisionless messages) (hs : ∀ a ∈ s.digested, a ∈ messages)
    (ht : ∀ a ∈ t.digested, a ∈ messages) (h : s.cacheKey = t.cacheKey) : s = t := by
  obtain ⟨sText, sKey, -⟩ := List.forall_mem_cons.1 hs |>.imp_right List.forall_mem_cons.1
  obtain ⟨tText, tKey, -⟩ := List.forall_mem_cons.1 ht |>.imp_right List.forall_mem_cons.1
  have keys := distinct _ sKey _ tKey (hex_inj.1 h)
  obtain ⟨tool, schema⟩ := zeroFree_versions
  have same := (CacheKey.bytes_inj (s.wellFormed_key tool schema)
    (t.wellFormed_key tool schema)).1 keys
  have texts := distinct _ sText _ tText (hex_inj.1 (congrArg CacheKey.fingerprint same))
  exact canonical_inj.1 (toUTF8_toList_inj.1 texts)

/-- A marked field, with its symbol and with the value of its marker's argument. -/
def Snapshot.boundField : Snapshot where
  files := [⟨"Hall.cs", [.typeDecl "Hall"
    [.fieldDecl ⟨[[⟨"FromHierarchy", [⟨2, "Self"⟩]⟩]], "Door", [⟨1, "_door"⟩]⟩]]⟩]
  facts :=
    ⟨.ofList [(1, ⟨"_door", .named "Door", ⟨1, "Hall", none, []⟩⟩)], .ofList [(2, .integer 1)]⟩

theorem Snapshot.read_boundField : read boundField.canonical = .ok boundField :=
  (read_eq_ok_iff (Json.Value.tokens_compact _)).2 (by decide)

/-! ## Manifests -/

namespace Manifest

open Json.Reader

theorem reads_manifest (m : Manifest) : Reads decode m.encode m :=
  reads_parts (fun depth =>
    .cons rfl (by decide) (reads_string m.cacheKey depth)
      (.cons rfl (by decide) (reads_list (fun name _ => reads_string name) depth)
        (.cons rfl (by decide) (reads_list (fun shown _ => reads_string shown) depth)
          (.nil ..)))) rfl

theorem itemsNesting_map_string (texts : List String) :
    Json.Value.itemsNesting (texts.map .string) = 0 := by
  induction texts with
  | nil => rfl
  | cons text texts ih => rw [List.map_cons, Json.Value.itemsNesting, ih, Json.Value.nesting]; rfl

/-- A manifest is read as it was written. -/
theorem read_pretty (m : Manifest) : read m.pretty = .ok m := by
  have shallow : m.encode.nesting = 2 := by
    simp only [encode, Json.Value.nesting, Json.Value.entriesNesting, itemsNesting_map_string]
    rfl
  have within := document_eq (reads_manifest m) (Json.Value.tokens_pretty m.encode)
  rw [shallow] at within
  exact within

end Manifest

end HierarchyAccessors
