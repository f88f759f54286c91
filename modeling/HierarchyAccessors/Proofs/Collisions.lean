import HierarchyAccessors.Proofs.CacheKeys

/-!
# Cache keys and collisions

From a snapshot to the digest of its cache key two digests are taken, of the canonical text of the
snapshot and of the bytes of the key. Each of them may confuse what it is given, and nothing else
does: where two keys have one digest, snapshots and versions are the same, or one of two given pairs
of byte strings collides (`eq_or_collide_of_digest_eq`).
-/

namespace HierarchyAccessors

/-- Different byte strings have one digest. -/
def Collide (a b : List UInt8) : Prop :=
  a ≠ b ∧ Digest.sha256 a = Digest.sha256 b

theorem eq_or_collide {a b : List UInt8} (h : Digest.sha256 a = Digest.sha256 b) :
    a = b ∨ Collide a b := by
  by_cases same : a = b
  · exact .inl same
  · exact .inr ⟨same, h⟩

/-- **Only a collision confuses cache keys.** The canonical text determines a snapshot, and keys
with one digest are those of the same snapshot and versions, unless the canonical texts of the
snapshots collide or the bytes of the keys do. -/
theorem eq_or_collide_of_digest_eq :
    Function.Injective Snapshot.canonical ∧
      ∀ (s t : Snapshot) (tool tool' schema schema' : String), ZeroFree tool → ZeroFree tool' →
        ZeroFree schema → ZeroFree schema' →
        CacheKey.digest ⟨s.fingerprint, tool, schema⟩ =
          CacheKey.digest ⟨t.fingerprint, tool', schema'⟩ →
        (s = t ∧ tool = tool' ∧ schema = schema') ∨
          Collide s.canonical.toUTF8.toList t.canonical.toUTF8.toList ∨
          Collide (CacheKey.bytes ⟨s.fingerprint, tool, schema⟩)
            (CacheKey.bytes ⟨t.fingerprint, tool', schema'⟩) := by
  refine ⟨fun s t h => Snapshot.canonical_inj.1 h, ?_⟩
  intro s t tool tool' schema schema' htool htool' hschema hschema' h
  rcases eq_or_collide (hex_inj.1 h) with keys | collision
  · have parts := (CacheKey.bytes_inj (s.wellFormed_key htool hschema)
      (t.wellFormed_key htool' hschema')).1 keys
    obtain ⟨fingerprints, tools, schemas⟩ := CacheKey.mk.inj parts
    rcases eq_or_collide (hex_inj.1 fingerprints) with texts | collision
    · exact .inl ⟨Snapshot.canonical_inj.1 (toUTF8_toList_inj.1 texts), tools, schemas⟩
    · exact .inr (.inl collision)
  · exact .inr (.inr collision)

/-- The versions that the tool itself uses have no zeros in them. -/
theorem eq_or_collide_of_boundField :
    let s := Snapshot.boundField
    let key : CacheKey := ⟨s.fingerprint, toolVersion, Schema.version⟩
    (ZeroFree toolVersion ∧ ZeroFree Schema.version) ∧ s.cacheKey = key.digest ∧
      ((s = s ∧ toolVersion = toolVersion ∧ Schema.version = Schema.version) ∨
        Collide s.canonical.toUTF8.toList s.canonical.toUTF8.toList ∨
        Collide key.bytes key.bytes) := by
  intro s key
  obtain ⟨tool, schema⟩ := zeroFree_versions
  exact ⟨⟨tool, schema⟩, rfl,
    eq_or_collide_of_digest_eq.2 s s toolVersion toolVersion Schema.version Schema.version
      tool tool schema schema rfl⟩

end HierarchyAccessors
