import DatabaseOperator.Cluster.Secrets
import DatabaseOperator.Proofs.Cluster.Rereading
import DatabaseOperator.Proofs.Text.Base64

namespace DatabaseOperator

namespace SecretObject

variable {s s' : SecretObject}

theorem decodeBytes_encodeBytes (bytes : List UInt8) : decodeBytes (encodeBytes bytes) = some bytes := by
  rw [encodeBytes, decodeBytes, String.toList_ofList]
  exact Base64.decode_encode bytes

theorem option?_bytes (d : Dictionary (List UInt8)) : Json.option? (Json.dictionary? decodeBytes)
    (.object (d.map encodeBytes).entries) = some (some d) :=
  Json.option?_of_object (Json.dictionary?_map decodeBytes_encodeBytes d)

def parts (s : SecretObject) : List (String × Option Json) :=
  [("apiVersion", some (.string "v1")), ("kind", some (.string "Secret")),
    ("data", s.data.map fun d => .object (d.map encodeBytes).entries),
    ("immutable", s.immutable.map .bool), ("metadata", some s.metadata.encode),
    ("stringData", s.stringData.map Metadata.encodeTexts), ("type", s.type.map .string)]

theorem encode_eq (s : SecretObject) : s.encode = .object (Json.presents s.parts) := by
  simp only [encode, Json.presents, parts, Json.present, List.flatMap_cons, List.flatMap_nil,
    List.append_assoc, List.append_nil, List.cons_append, List.nil_append]

theorem member?_parts {α : Type} {name : String} {decode : Decoder α} :
    Json.member? (Json.presents s.parts) name decode =
      ((s.parts.lookup name).getD none).elim (some none) (Json.option? decode) :=
  Json.member?_presents (show ["apiVersion", "kind", "data", "immutable", "metadata", "stringData",
    "type"].Nodup by decide)

theorem hasOnly_presents {parts : List (String × Option Json)} {name value : String}
    (only : ∀ p ∈ parts, p.1 = name → p.2 = some (.string value)) :
    hasOnly (Json.presents parts) name value = true := by
  refine List.all_eq_true.mpr fun m mem => ?_
  obtain ⟨⟨other, v⟩, there, mem⟩ := List.mem_flatMap.mp mem
  cases v with
  | none => cases mem
  | some v =>
    cases List.mem_singleton.mp mem
    by_cases same : other = name
    · cases only _ there same
      simp [Json.text?]
    · simp [same]

theorem hasOnly_parts : hasOnly (Json.presents s.parts) "apiVersion" "v1" = true ∧
    hasOnly (Json.presents s.parts) "kind" "Secret" = true := by
  constructor <;> exact hasOnly_presents (by simp [parts])

/-- A secret, and what is read of it. -/
structure Reread (s s' : SecretObject) : Prop where
  metadata : s.metadata.Reread s'.metadata
  data : s'.data = s.data
  immutable : s'.immutable = s.immutable
  stringData : s'.stringData = s.stringData
  type : s'.type = s.type

theorem decode_encode_iff : decode s.encode = some s' ↔ Reread s s' := by
  have described : Json.memberOr (Json.presents s.parts) "metadata" .blank Metadata.decode =
      Metadata.decode s.metadata.encode := by
    have given : s.parts.lookup "metadata" = some (some s.metadata.encode) := rfl
    have object : s.metadata.encode ≠ .null := nofun
    rw [Json.memberOr, member?_parts, given, Option.getD_some, Option.elim_some,
      Json.option?_of_ne_null object, Option.map_map]
    exact Option.map_id_apply
  have data : Json.member? (Json.presents s.parts) "data" (Json.dictionary? decodeBytes) = some s.data :=
    member?_parts.trans (Json.elim_option? option?_bytes)
  have immutable : Json.member? (Json.presents s.parts) "immutable" Json.bool? = some s.immutable :=
    member?_parts.trans (Json.elim_option? fun _ => rfl)
  have stringData : Json.member? (Json.presents s.parts) "stringData" (Json.dictionary? Json.text?) =
      some s.stringData := member?_parts.trans (Json.elim_option? Json.option?_texts)
  have type : Json.member? (Json.presents s.parts) "type" Json.text? = some s.type :=
    member?_parts.trans (Json.elim_option? fun _ => rfl)
  simp only [encode_eq, decode, Json.members?, hasOnly_parts, described, data, immutable, stringData, type,
    bind_eq_some_iff, Option.some.injEq, exists_eq_left', Bool.and_self, if_true]
  constructor
  · rintro ⟨m, read, rfl⟩
    exact ⟨Metadata.decode_encode_iff.mp read, rfl, rfl, rfl, rfl⟩
  · rintro ⟨metadata, data, immutable, stringData, type⟩
    refine ⟨_, Metadata.decode_encode_iff.mpr metadata, ?_⟩
    rw [← data, ← immutable, ← stringData, ← type]

theorem Reread.again (h : Reread s s') : Reread s' s' :=
  ⟨h.metadata.again, rfl, rfl, rfl, rfl⟩

/-- A secret is read as it was written, when what describes it is. -/
theorem decode_encode (described : Metadata.decode s.metadata.encode = some s.metadata) :
    decode s.encode = some s :=
  decode_encode_iff.mpr ⟨Metadata.decode_encode_iff.mp described, rfl, rfl, rfl, rfl⟩

end SecretObject

end DatabaseOperator
