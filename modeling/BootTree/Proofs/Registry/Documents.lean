/-
  Registry documents, written and read again.

  1. **Records** — each kind of record reads back from its form as data: the declared files with
     their order, the options and variables with that of their keys, and whatever is missing as
     missing (`Distro.read_ofValue`, `Host.read_ofValue`, `Image.read_ofValue`).

  2. **Registries** — so a registry reads back from its document, record by record
     (`Registry.read_ofValue`), if the objects in it are maps (`Registry.DistinctKeys`).

  3. **Decoding** — the objects are maps in whatever was read from a document
     (`Registry.distinctKeys_of_read`), so a registry that was loaded can be loaded again from its own
     document (`Registry.reload`).

  4. **Loading** — a document is accepted exactly if its records make a valid registry, in whatever
     order they stand, and a registry that was built by additions is the one that its own document
     gives (`documents_roundTrip`).
-/
import BootTree.Proofs.Registry.Loading
import BootTree.Proofs.Source

namespace BootTree

/-! ## Records -/

namespace TemplateFiles

theorem eq_of_entries {files files' : TemplateFiles} (h : files.entries = files'.entries) :
    files = files' := by
  cases files
  cases files'
  cases h
  rfl

/-- A new destination comes at the end. -/
theorem insertIn_of_not_mem {destination : String} {entries : List (String × String)}
    (h : destination ∉ entries.map Prod.fst) (source : String) :
    insertIn destination source entries = entries ++ [(destination, source)] := by
  induction entries with
  | nil => rfl
  | cons e rest ih =>
    obtain ⟨d, s⟩ := e
    rw [List.map_cons, List.mem_cons, not_or] at h
    rw [insertIn, if_neg (Ne.symm h.1), ih h.2, List.cons_append]

theorem readEntries_ofFields {files all : TemplateFiles} {entries : List (String × String)}
    (h : all.entries = files.entries ++ entries) :
    readEntries files (Source.ofFields (entries.map fun e => (e.1, .text e.2))) = .ok all := by
  induction entries generalizing files with
  | nil =>
    rw [List.append_nil] at h
    rw [eq_of_entries h]
    rfl
  | cons e rest ih =>
    obtain ⟨destination, source⟩ := e
    have hnew : destination ∉ files.entries.map Prod.fst :=
      not_mem_of_nodup_append (h ▸ all.distinct)
    have hnext : (files.insert destination source).entries =
        files.entries ++ [(destination, source)] := insertIn_of_not_mem hnew source
    rw [List.map_cons, Source.ofFields, readEntries]
    refine ih ?_
    rw [hnext, h, List.append_cons]

theorem read_ofValue (files : TemplateFiles) : read (.ofValue files.toValue) = .ok files := by
  rw [toValue, Source.ofValue]
  exact readEntries_ofFields rfl

end TemplateFiles

theorem Source.asOptionalText_ofValue (s : Option String) :
    asOptionalText (ofValue (.ofOptionalText s)) = some s := by
  cases s <;> rfl

/-- The options and the variables are maps, at any depth. -/
structure Distro.DistinctKeys (d : Distro) : Prop where
  options : (Value.object d.kernelOptions).DistinctKeys
  free : (Value.object d.templateVariables).DistinctKeys

theorem Distro.read_ofValue {d : Distro} (h : d.DistinctKeys) :
    read (.ofValue d.toValue) = some d := by
  have hslots : Source.slots fieldNames (.ofValue d.toValue) = some (Source.slotsOf _) :=
    Source.slots_ofValue rfl (by decide)
  rw [read, hslots]
  simp [Source.required_slotsOf, Source.optional_slotsOf, Fields.get?, Source.asText_ofValue,
    Source.asOptionalText_ofValue, Source.asFields_ofValue h.options,
    Source.asFields_ofValue h.free, TemplateFiles.read_ofValue, Except.toOption]

theorem Interface.read_ofValue (i : Interface) : read (.ofValue i.toValue) = some i := by
  have hslots : Source.slots fieldNames (.ofValue i.toValue) = some (Source.slotsOf _) :=
    Source.slots_ofValue rfl (by decide)
  rw [read, hslots]
  simp [Source.required_slotsOf, Source.optional_slotsOf, Fields.get?, Source.asText_ofValue,
    Source.asOptionalText_ofValue]

/-- The options and the variables are maps, at any depth. -/
structure Host.DistinctKeys (host : Host) : Prop where
  options : (Value.object host.kernelOptions).DistinctKeys
  free : (Value.object host.templateVariables).DistinctKeys

theorem Host.read_ofValue {host : Host} (h : host.DistinctKeys) :
    read (.ofValue host.toValue) = some host := by
  have hslots : Source.slots fieldNames (.ofValue host.toValue) = some (Source.slotsOf _) :=
    Source.slots_ofValue rfl (by decide)
  have hinterfaces := Source.asList_ofValue fun i (_ : i ∈ host.interfaces) =>
    Interface.read_ofValue i
  rw [read, hslots]
  simp [Source.required_slotsOf, Source.optional_slotsOf, Fields.get?, Source.asText_ofValue,
    Source.asBool_ofValue, Source.asOptionalText_ofValue, hinterfaces,
    Source.asFields_ofValue h.options, Source.asFields_ofValue h.free,
    TemplateFiles.read_ofValue, Except.toOption]

theorem Image.read_ofValue (i : Image) : read (.ofValue i.toValue) = some i := by
  have hslots : Source.slots ["name", "file"] (.ofValue i.toValue) = some (Source.slotsOf _) :=
    Source.slots_ofValue rfl (by decide)
  rw [read, hslots]
  simp [Source.required_slotsOf, Fields.get?, Source.asText_ofValue]

/-! ## Registries -/

/-- The objects in the records are maps. -/
structure Registry.DistinctKeys (r : Registry) : Prop where
  distros : ∀ d ∈ r.distros, d.DistinctKeys
  hosts : ∀ host ∈ r.hosts, host.DistinctKeys

/-- A registry reads back from its document. -/
theorem Registry.read_ofValue {r : Registry} (h : r.DistinctKeys) :
    read (.ofValue r.toValue) = some r := by
  have hslots : Source.slots ["distros", "hosts", "images"] (.ofValue r.toValue) =
      some (Source.slotsOf _) := Source.slots_ofValue rfl (by decide)
  have hdistros := Source.asList_ofValue fun d hd => Distro.read_ofValue (h.distros d hd)
  have hhosts := Source.asList_ofValue fun host hhost => Host.read_ofValue (h.hosts host hhost)
  have himages := Source.asList_ofValue fun i (_ : i ∈ r.images) => Image.read_ofValue i
  rw [read, hslots]
  simp [Source.optional_slotsOf, Fields.get?, hdistros, hhosts, himages]

namespace Addition

/-- The objects in the record that is added are maps. -/
def DistinctKeys : Addition → Prop
  | distro d => d.DistinctKeys
  | host h => h.DistinctKeys
  | image _ => True

theorem append_distinctKeys {call : Addition} {r : Registry} (hr : r.DistinctKeys)
    (h : call.DistinctKeys) : (call.append r).DistinctKeys := by
  cases call with
  | distro d => exact { hr with distros := mem_append_singleton hr.distros h }
  | host host => exact { hr with hosts := mem_append_singleton hr.hosts h }
  | image i => exact { hr with }

theorem run_distinctKeys {call : Addition} {r : Registry} (hr : r.DistinctKeys)
    (h : call.DistinctKeys) : (call.run r).2.DistinctKeys := by
  rcases run_cases call r with ⟨-, hrun⟩ | ⟨-, e, hrun⟩
  · rw [hrun]
    exact append_distinctKeys hr h
  · rw [hrun]
    exact hr

theorem runAll_distinctKeys {calls : List Addition} {r : Registry} (hr : r.DistinctKeys)
    (h : ∀ call ∈ calls, call.DistinctKeys) : (runAll calls r).DistinctKeys := by
  induction calls generalizing r with
  | nil => exact hr
  | cons call rest ih =>
    obtain ⟨hcall, hrest⟩ := List.forall_mem_cons.mp h
    exact ih (run_distinctKeys hr hcall) hrest

end Addition

/-! ## Decoding -/

theorem Distro.distinctKeys_of_read {s : Source} (hs : s.Plain) {d : Distro}
    (h : read s = some d) : d.DistinctKeys := by
  simp only [read, Option.bind_eq_bind, Option.bind_eq_some_iff, Option.some.injEq] at h
  obtain ⟨given, hgiven, name, -, arch, -, kernel, -, initrd, -, options, hoptions, files, -, free,
    hfree, rfl⟩ := h
  exact ⟨Source.distinctKeys_of_optional (hs.slots hgiven) hoptions,
    Source.distinctKeys_of_optional (hs.slots hgiven) hfree⟩

theorem Host.distinctKeys_of_read {s : Source} (hs : s.Plain) {host : Host}
    (h : read s = some host) : host.DistinctKeys := by
  simp only [read, Option.bind_eq_bind, Option.bind_eq_some_iff, Option.some.injEq] at h
  obtain ⟨given, hgiven, name, -, distro, -, hostname, -, netboot, -, interfaces, -, options,
    hoptions, files, -, free, hfree, rfl⟩ := h
  exact ⟨Source.distinctKeys_of_optional (hs.slots hgiven) hoptions,
    Source.distinctKeys_of_optional (hs.slots hgiven) hfree⟩

/-- The objects in the records of a document are maps, whatever the document repeats. -/
theorem Registry.distinctKeys_of_read {s : Source} (hs : s.Plain) {r : Registry}
    (h : read s = some r) : r.DistinctKeys := by
  simp only [read, Option.bind_eq_bind, Option.bind_eq_some_iff, Option.some.injEq] at h
  obtain ⟨given, hgiven, distros, hdistros, hosts, hhosts, images, -, rfl⟩ := h
  have hplain := hs.slots hgiven
  refine ⟨fun d hd => ?_, fun host hhost => ?_⟩
  · obtain ⟨item, hitem, hread⟩ := Source.plain_of_optional_asList hplain hdistros d hd
    exact Distro.distinctKeys_of_read hitem hread
  · obtain ⟨item, hitem, hread⟩ := Source.plain_of_optional_asList hplain hhosts host hhost
    exact Host.distinctKeys_of_read hitem hread

/-! ## Loading -/

/-- What was loaded from plain data can be written, read and loaded again, and stays the same. -/
theorem Registry.reload {v : Value} {records r : Registry} (hread : read (.ofValue v) = some records)
    (hcheck : records.check = .ok r) :
    read (.ofValue r.toValue) = some r ∧ r.check = .ok r := by
  obtain ⟨hvalid, rfl⟩ := check_eq_ok.mp hcheck
  have hkeys : r.DistinctKeys := distinctKeys_of_read (Source.plain_ofValue v) hread
  exact ⟨read_ofValue hkeys, check_eq_ok.mpr ⟨hvalid, rfl⟩⟩

/-- A registry document is accepted exactly if all names are valid, no two records of a kind share
one, and the distribution of every host is among the distributions, so the records may stand in any
order within their lists.  What is loaded are the records of the document.

A registry that was built by additions of records, whose options and variables are maps as in every
record that is read, can be written as a document, and read and loaded again it is the same registry:
records, declared files and the keys of maps are in their order. -/
theorem documents_roundTrip (records : Registry) {calls : List Addition}
    (h : ∀ call ∈ calls, call.DistinctKeys) :
    ((∃ r, records.check = .ok r) ↔ records.Valid) ∧
    (∀ r, records.check = .ok r → r = records) ∧
    (∀ records', records.Rearranges records' →
      ((∃ r, records'.check = .ok r) ↔ ∃ r, records.check = .ok r)) ∧
    ∃ document,
      Registry.read (.ofValue (Addition.runAll calls .empty).toValue) = some document ∧
        document.check = .ok (Addition.runAll calls .empty) := by
  have hloads : ∀ records : Registry, (∃ r, records.check = .ok r) ↔ records.Valid :=
    fun records => ⟨fun ⟨_, hr⟩ => (Registry.check_eq_ok.mp hr).1,
      fun hvalid => ⟨records, Registry.check_eq_ok.mpr ⟨hvalid, rfl⟩⟩⟩
  refine ⟨hloads records, fun r hr => (Registry.check_eq_ok.mp hr).2, fun records' hsame => ?_, ?_⟩
  · rw [hloads, hloads]
    exact ⟨hsame.symm.valid, hsame.valid⟩
  · have hvalid : (Addition.runAll calls .empty).Valid :=
      Addition.runAll_valid calls Registry.valid_empty
    have hkeys : (Addition.runAll calls .empty).DistinctKeys :=
      Addition.runAll_distinctKeys ⟨nofun, nofun⟩ h
    exact ⟨_, Registry.read_ofValue hkeys, Registry.check_eq_ok.mpr ⟨hvalid, rfl⟩⟩

/-- A distribution with an option that is an object, a host that boots it, and an image. -/
def smallAdditions : List Addition := [
  .distro { name := "d", kernel := "k", initrd := "i",
            kernelOptions := [("quiet", .null), ("net", .object [("ip", .text "dhcp")])] },
  .host { name := "h", distro := "d" },
  .image { name := "m", file := "m.iso" }]

theorem distinctKeys_smallAdditions : ∀ call ∈ smallAdditions, call.DistinctKeys := by
  have hnone : (Value.object []).DistinctKeys := .object List.nodup_nil nofun
  have hnet : (Value.object [("ip", .text "dhcp")]).DistinctKeys :=
    .object (List.nodup_singleton _) (List.forall_mem_singleton.mpr (.text "dhcp"))
  refine List.forall_mem_cons.mpr ⟨⟨.object (by decide) ?_, hnone⟩, ?_⟩
  · exact List.forall_mem_cons.mpr ⟨.null, List.forall_mem_singleton.mpr hnet⟩
  · exact List.forall_mem_cons.mpr ⟨⟨hnone, hnone⟩, List.forall_mem_singleton.mpr trivial⟩

/-- All three are accepted, and the registry is found again in its document. -/
theorem documents_roundTrip_small : (Addition.runAll smallAdditions .empty).hosts.length = 1 ∧
    ∃ document,
      Registry.read (.ofValue (Addition.runAll smallAdditions .empty).toValue) = some document ∧
        document.check = .ok (Addition.runAll smallAdditions .empty) :=
  ⟨by decide, (documents_roundTrip .empty distinctKeys_smallAdditions).2.2.2⟩

end BootTree
