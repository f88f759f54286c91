import HierarchyAccessors.Proofs.Json.Prefixes
import HierarchyAccessors.Proofs.Json.Steady
import HierarchyAccessors.Proofs.Outcomes

/-!
# Manifests that were not written to the end

An interrupted run may leave the first bytes of a manifest. Cut inside a character, they are no
text; cut elsewhere, they are the beginning of a text that ends with the brace of an object, which
is no text of its own (`Manifest.eq_of_read_prefix`).

**Theorem (`partly_written_manifest`).** Whatever manifest was to be written, a proper beginning of
its bytes counts as no manifest: no key is found, and storing an output takes no file away.
-/

namespace HierarchyAccessors

open Json (Steady)
open Json.Reader
open RunM

/-! ## Bytes and characters -/

namespace Disk

theorem eq_bytesOf_of_textOf {bytes : List UInt8} {text : String} (h : textOf bytes = .ok text) :
    bytes = bytesOf text := by
  unfold textOf String.fromUTF8? at h
  split at h
  · next s found =>
    cases h
    split at found
    · cases found
      rw [bytesOf, byteArray_toList_eq]
      rfl
    · cases found
  · cases h

/-- Where bytes go on, so do the characters. -/
theorem toList_prefix_of_bytesOf_prefix {s t : String} (h : bytesOf s <+: bytesOf t) :
    s.toList <+: t.toList := by
  obtain ⟨rest, parts⟩ := h
  apply List.isPrefix_of_utf8Encode_append_eq_utf8Encode rest.toByteArray
  rw [String.utf8Encode_toList, String.utf8Encode_toList]
  rw [bytesOf, bytesOf, byteArray_toList_eq, byteArray_toList_eq] at parts
  apply ByteArray.ext
  apply Array.toList_inj.1
  simpa using parts

end Disk

open Disk (bytesOf)

/-! ## The text of a manifest -/

namespace Manifest

theorem steady_decode (depth : Nat) : Steady (decode depth) :=
  (steady_record
    (.cons (Field.steady_of steady_string) (by simp [Field.commutes_of])
      (.cons (Field.steady_of (steady_list steady_string)) (by simp [Field.commutes_of])
        (.cons (Field.steady_of (steady_list steady_string)) (by simp) .nil))) _ depth).bind _

theorem decode_number_ne_ok (depth : Nat) (n : Json.Numeral) (m : Manifest) :
    decode depth (.number n) ≠ .ok m := by
  intro h
  cases h

/-- No beginning of the text is read as a manifest, unless it is all of the text. -/
theorem eq_of_read_prefix {m m' : Manifest} {text : String}
    (front : text.toList <+: m.pretty.toList) (accepted : read text = .ok m') :
    text = m.pretty := by
  obtain ⟨t, spelled, value⟩ :=
    exists_spelled_of_document (fun _ honest => (steady_decode _).whole honest) accepted
  refine Json.Value.eq_of_spelled_prefix front spelled fun n number => ?_
  rw [number] at value
  exact decode_number_ne_ok _ n m' value

end Manifest

namespace OutputDirectory

/-- The first bytes of a manifest count as none. -/
theorem manifest?_of_prefix {disk : Disk} {here : Location} {m : Manifest} {bytes : List UInt8}
    (found : disk.fileUnder? here Manifest.fileName = some bytes)
    (front : bytes <+: bytesOf m.pretty) (proper : bytes ≠ bytesOf m.pretty) :
    manifest? disk here = none := by
  rw [manifest?_eq_bind, found, Option.bind_some]
  cases characters : Disk.textOf bytes with
  | error => rfl
  | ok text =>
    have same := Disk.eq_bytesOf_of_textOf characters
    rw [same] at front proper
    cases accepted : Manifest.read text with
    | error fault => simp [Except.toOption, accepted]
    | ok m' =>
      have all := Manifest.eq_of_read_prefix (Disk.toList_prefix_of_bytesOf_prefix front) accepted
      exact absurd (congrArg bytesOf all) proper

/-! ## Storing where there is no manifest -/

/-- Where there is no manifest, every step puts a unit or the new manifest into the directory. -/
theorem exists_put_of_mem_fileSteps {cacheKey : String} {output : Output} {step : FileStep}
    (mem : step ∈ fileSteps none cacheKey output) :
    ∃ file, step = .put file ∧ (file ∈ output.units ∨ file.name = Manifest.fileName) := by
  simp only [fileSteps, Option.elim_none, List.map_nil, List.nil_append, List.mem_append,
    List.mem_map, List.mem_singleton] at mem
  rcases mem with ⟨unit, hunit, rfl⟩ | rfl
  · exact ⟨unit, rfl, .inl hunit⟩
  · exact ⟨_, rfl, .inr rfl⟩

/-- Files may be written over, but none is gone. -/
theorem Ran.node?_of_file {disk after : Disk} {here : Location} {steps : List FileStep}
    (h : Ran disk after here steps) (puts : ∀ step ∈ steps, ∃ file, step = .put file)
    {l : Location} {bytes : List UInt8} (file : disk.node? l = some (.file bytes)) :
    ∃ bytes', after.node? l = some (.file bytes') := by
  rcases h.left l with ⟨-, same⟩ | @⟨before, later, last, parts, -, -, left⟩
  · exact ⟨bytes, same.trans file⟩
  · obtain ⟨written, rfl⟩ := puts last (by simp [parts])
    exact ⟨_, left⟩

/-! ## The theorem -/

/-- **A partly written manifest is never believed.** If the file holds a proper beginning of the
bytes of a manifest, no manifest is found there. No key is found, then, and storing whatever output
leaves every file a file and changes only what the units and the manifest denote, whether it
succeeds or not. From all bytes the manifest is read as it was written. -/
theorem partly_written_manifest (m : Manifest) :
    (∀ (disk : Disk) (here : Location) (bytes : List UInt8),
      disk.fileUnder? here Manifest.fileName = some bytes →
      bytes <+: bytesOf m.pretty → bytes ≠ bytesOf m.pretty →
      manifest? disk here = none ∧
      ∀ path cacheKey, disk.openDirectory none path = .ok here →
        (intactManifest path cacheKey).on disk = (.ok none, disk) ∧
        ∀ output result after, (store path cacheKey output).on disk = (result, after) →
          (∀ l content, disk.node? l = some (.file content) →
            ∃ content', after.node? l = some (.file content')) ∧
          ∀ l, (∀ unit ∈ output.units, ¬disk.Denotes here unit.name l) →
            ¬disk.Denotes here Manifest.fileName l → after.node? l = disk.node? l) ∧
    ∀ (disk : Disk) (here : Location),
      disk.fileUnder? here Manifest.fileName = some (bytesOf m.pretty) →
      manifest? disk here = some m := by
  refine ⟨?_, fun _ _ => manifest?_eq_some⟩
  intro disk here bytes found front proper
  have none := manifest?_of_prefix found front proper
  refine ⟨none, fun path cacheKey isOpen => ⟨?_, fun output result after stored => ?_⟩⟩
  · rw [(looks_intactManifest path cacheKey).on_eq, intactManifest_found, isOpen]
    simp [none]
  · obtain ⟨done, among, ran⟩ := exists_ran_of_store isOpen cacheKey output
    rw [stored] at ran
    rw [none] at among
    refine ⟨fun l content => ran.node?_of_file fun step mem => ?_, fun l units manifest => ?_⟩
    · obtain ⟨file, eq, -⟩ := exists_put_of_mem_fileSteps (among.subset mem)
      exact ⟨file, eq⟩
    · refine (ran.left l).unique (.untouched (fun step mem => ?_) rfl)
      obtain ⟨file, rfl, unit | own⟩ := exists_put_of_mem_fileSteps (among.subset mem)
      · exact units file unit
      · rw [FileStep.name, own]
        exact manifest

/-- A manifest is cut off inside a character, and then inside an escape. Neither of the two says
anything of the unit, which stays although nothing is generated any more. -/
theorem partly_written_manifest_after_escape :
    let m : Manifest := ⟨"é", ["A\".g.cs"], []⟩
    let disk (bytes : List UInt8) : Disk :=
      { nodes := [(["out"], .directory), (["out", Manifest.fileName], .file bytes),
          (["out", "A\".g.cs"], .file [])]
        workingDirectory := [] }
    let insideCharacter := (bytesOf m.pretty).take 19
    let insideEscape := (bytesOf m.pretty).take 43
    19 < 43 ∧ 43 < (bytesOf m.pretty).length ∧
      manifest? (disk insideCharacter) ["out"] = none ∧
      (intactManifest "out" "é").on (disk insideEscape) = (.ok none, disk insideEscape) ∧
      (∃ content, ((store "out" "é" ⟨[], []⟩).on (disk insideEscape)).2.node? ["out", "A\".g.cs"] =
        some (.file content)) ∧
      manifest? (disk (bytesOf m.pretty)) ["out"] = some m := by
  intro m disk insideCharacter insideEscape
  have long : 43 < (bytesOf m.pretty).length := by
    rw [bytesOf, toUTF8_toList]
    decide
  have cut {n : Nat} (few : n ≤ 43) : (bytesOf m.pretty).take n ≠ bytesOf m.pretty := by
    intro same
    have lengths := congrArg List.length same
    rw [List.length_take] at lengths
    omega
  have found (bytes : List UInt8) :
      (disk bytes).fileUnder? ["out"] Manifest.fileName = some bytes :=
    validName_manifest.fileUnder?_eq rfl
  obtain ⟨cutOff, whole⟩ := partly_written_manifest m
  obtain ⟨-, unknown⟩ :=
    cutOff (disk insideEscape) ["out"] _ (found _) (List.take_prefix 43 _) (cut (by decide))
  obtain ⟨noKey, stored⟩ := unknown "out" "é" rfl
  exact ⟨by decide, long,
    (cutOff (disk insideCharacter) ["out"] _ (found _) (List.take_prefix 19 _)
      (cut (by decide))).1,
    noKey, (stored ⟨[], []⟩ _ _ (Prod.eta _).symm).1 _ [] rfl, whole _ _ (found _)⟩

end OutputDirectory

end HierarchyAccessors
