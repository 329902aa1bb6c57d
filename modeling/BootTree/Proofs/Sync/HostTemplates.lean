/-
  Writing the templates of a host, entry by entry.

  An entry takes five steps, each of which may fail: its source is rendered, read and rendered as a
  text, then its destination is rendered, and the text is written there.  The entries share one tree,
  so what one of them writes may be what a later one reads.

  1. **One entry** — on the tree that it finds, an entry comes to a destination and a text (`ComesTo`)
     and is written at one stroke (`WritesEntry`), or one of its steps fails (`FailsWith`) and no file
     changes but the temporary one beside the destination (`StopsAt`).

  2. **All entries** — they are written in their order, each on the tree that the one before it left,
     up to the first that fails (`exists_writesAll`).

  3. **Texts** — entries that write neither over each other nor over a source find the sources as they
     were, and none undoes what another one wrote (`WritesAll.holds`).
-/
import BootTree.Proofs.Settings.Effects
import BootTree.Proofs.Sync.Menu

namespace BootTree.Pxe

variable {ctx : Context} {vars : Fields} {entry other : String × String}
  {entries : List (String × String)} {t t' now : FileTree} {e : SyncError}

/-! ## One entry -/

/-- On a tree an entry comes to this path and this text. -/
inductive ComesTo (ctx : Context) (vars : Fields) (entry : String × String) (t : FileTree) :
    Path → String → Prop where
  | rendered {source template text destination : String} :
      ctx.renderer.render entry.2 vars = .ok source →
      t.textAt (.ofText source) = .ok template →
      ctx.renderer.render template vars = .ok text →
      ctx.renderer.render entry.1 vars = .ok destination →
      ComesTo ctx vars entry t (templateDestination ctx.settings destination) text

/-- Why an entry fails on a tree, step by step. -/
inductive FailsWith (ctx : Context) (vars : Fields) (entry : String × String) (t : FileTree) :
    SyncError → Prop where
  | source {e : SyncError} : ctx.renderer.render entry.2 vars = .error e →
      FailsWith ctx vars entry t e
  | unreadable {source : String} {cause : Cause} : ctx.renderer.render entry.2 vars = .ok source →
      t.read (Path.ofText source).text = .error cause →
      FailsWith ctx vars entry t (.file (.io (Path.ofText source).text cause))
  | notText {source : String} {bytes : ByteArray} : ctx.renderer.render entry.2 vars = .ok source →
      t.read (Path.ofText source).text = .ok bytes → String.fromUTF8? bytes = none →
      FailsWith ctx vars entry t (.file (.io (Path.ofText source).text .notText))
  | text {source template : String} {e : SyncError} : ctx.renderer.render entry.2 vars = .ok source →
      t.textAt (.ofText source) = .ok template → ctx.renderer.render template vars = .error e →
      FailsWith ctx vars entry t e
  | destination {source template text : String} {e : SyncError} :
      ctx.renderer.render entry.2 vars = .ok source → t.textAt (.ofText source) = .ok template →
      ctx.renderer.render template vars = .ok text → ctx.renderer.render entry.1 vars = .error e →
      FailsWith ctx vars entry t e
  | write {p : Path} {text : String} {e : FileError} : ComesTo ctx vars entry t p text →
      (writeText p text t).1 = .error e → FailsWith ctx vars entry t (.file e)

/-- The text that an entry comes to is at its destination, and no other file has changed. -/
def WritesEntry (ctx : Context) (vars : Fields) (entry : String × String) (t t' : FileTree) : Prop :=
  ∃ p text, ComesTo ctx vars entry t p text ∧ Stored p text.toUTF8 t t'

/-- An entry failed, and no file has changed but perhaps the temporary one beside its destination. -/
structure StopsAt (ctx : Context) (vars : Fields) (entry : String × String) (t : FileTree)
    (e : SyncError) (t' : FileTree) : Prop where
  cause : FailsWith ctx vars entry t e
  keeps : t' = t ∨ ∃ destination, ctx.renderer.render entry.1 vars = .ok destination ∧
    t.KeepsFiles (t.place (temporaryPath t.process (templateDestination ctx.settings destination))) t'

theorem failsWith_of_textAt {source : String} {e : FileError}
    (hsource : ctx.renderer.render entry.2 vars = .ok source)
    (h : t.textAt (.ofText source) = .error e) : FailsWith ctx vars entry t (.file e) := by
  obtain ⟨cause, hcause, rfl⟩ := mapError_eq_error.mp h
  rcases bind_eq_error.mp hcause with hread | ⟨bytes, hread, hbytes⟩
  · exact .unreadable hsource hread
  · cases hutf : String.fromUTF8? bytes with
    | some text =>
      rw [hutf] at hbytes
      cases hbytes
    | none =>
      rw [hutf] at hbytes
      cases hbytes
      exact .notText hsource hread hutf

theorem writesEntry_of_ok {r : Unit} (h : writeHostTemplate ctx vars entry t = (.ok r, t')) :
    WritesEntry ctx vars entry t t' := by
  obtain ⟨source, hsource, h⟩ := Change.inspect_bind_eq_ok.mp h
  obtain ⟨template, hread, h⟩ := Change.inspect_bind_eq_ok.mp h
  obtain ⟨text, htext, h⟩ := Change.inspect_bind_eq_ok.mp h
  obtain ⟨destination, hdestination, hwrite⟩ := Change.inspect_bind_eq_ok.mp h
  have hcomes : ComesTo ctx vars entry t (templateDestination ctx.settings destination) text :=
    .rendered hsource (mapError_eq_ok.mp hread) htext hdestination
  exact ⟨_, text, hcomes, stored_of_writeAtomic_ok (Change.mapError_eq_ok.mp hwrite)⟩

theorem stopsAt_of_error (h : writeHostTemplate ctx vars entry t = (.error e, t')) :
    StopsAt ctx vars entry t e t' := by
  -- the first four steps only read, so the tree is as it was where one of them fails
  rcases Change.inspect_bind_eq_error.mp h with ⟨hsource, ht⟩ | ⟨source, hsource, h⟩
  · exact ⟨.source hsource, .inl ht⟩
  rcases Change.inspect_bind_eq_error.mp h with ⟨hread, ht⟩ | ⟨template, hread, h⟩
  · obtain ⟨cause, hcause, rfl⟩ := mapError_eq_error.mp hread
    exact ⟨failsWith_of_textAt hsource hcause, .inl ht⟩
  have htemplate : t.textAt (.ofText source) = .ok template := mapError_eq_ok.mp hread
  rcases Change.inspect_bind_eq_error.mp h with ⟨htext, ht⟩ | ⟨text, htext, h⟩
  · exact ⟨.text hsource htemplate htext, .inl ht⟩
  rcases Change.inspect_bind_eq_error.mp h with ⟨hdestination, ht⟩ | ⟨destination, hdestination, h⟩
  · exact ⟨.destination hsource htemplate htext hdestination, .inl ht⟩
  obtain ⟨cause, hwrite, rfl⟩ := Change.mapError_eq_error.mp h
  have hbroken := brokenOff_of_writeAtomic_error hwrite
  refine ⟨.write (.rendered hsource htemplate htext hdestination) (congrArg Prod.fst hwrite), ?_⟩
  exact .inr ⟨destination, hdestination, hbroken.keepsFiles⟩

/-! ## All entries -/

/-- Entries are written one after the other, each on the tree that the one before it left. -/
inductive WritesAll (ctx : Context) (vars : Fields) :
    List (String × String) → FileTree → FileTree → Prop where
  | nil {t : FileTree} : WritesAll ctx vars [] t t
  | cons {entry : String × String} {rest : List (String × String)} {t t₁ t' : FileTree} :
      WritesEntry ctx vars entry t t₁ → WritesAll ctx vars rest t₁ t' →
      WritesAll ctx vars (entry :: rest) t t'

theorem writesAll_of_forM (h : entries.forM (writeHostTemplate ctx vars) t = (.ok (), now)) :
    WritesAll ctx vars entries t now := by
  induction entries generalizing t with
  | nil =>
    cases h
    exact .nil
  | cons entry rest ih =>
    obtain ⟨t₁, hfirst, hrest⟩ := run_forM_cons_eq_ok.mp h
    exact .cons (writesEntry_of_ok hfirst) (ih hrest)

/-- Entries are written in their order, either all of them or those before the first that fails. -/
theorem exists_writesAll {r : Except SyncError PUnit}
    (h : entries.forM (writeHostTemplate ctx vars) t = (r, t')) :
    ∃ done now, WritesAll ctx vars done t now ∧
      ((r = .ok () ∧ done = entries ∧ t' = now) ∨
        ∃ entry rest e, r = .error e ∧ entries = done ++ entry :: rest ∧
          StopsAt ctx vars entry now e t') := by
  obtain ⟨done, now, hdone, hend⟩ := exists_forM_run h
  refine ⟨done, now, writesAll_of_forM hdone, ?_⟩
  rcases hend with hall | ⟨entry, rest, e, hr, hentries, hfails⟩
  · exact .inl hall
  · exact .inr ⟨entry, rest, e, hr, hentries, stopsAt_of_error hfails⟩

/-- The places that an entry writes at, if its destination has a text: the destination, and the
temporary file beside it. -/
def writtenPlaces (ctx : Context) (vars : Fields) (t : FileTree) (entry : String × String) :
    List Place :=
  match ctx.renderer.render entry.1 vars with
  | .ok destination =>
    let p := templateDestination ctx.settings destination
    [t.place (temporaryPath t.process p), t.place p.text]
  | .error _ => []

theorem writtenPlaces_of_ok {destination : String}
    (h : ctx.renderer.render entry.1 vars = .ok destination) (t : FileTree) :
    writtenPlaces ctx vars t entry =
      [t.place (temporaryPath t.process (templateDestination ctx.settings destination)),
        t.place (templateDestination ctx.settings destination).text] := by
  rw [writtenPlaces, h]

theorem writtenPlaces_congr (hbase : t'.base = t.base) (hprocess : t'.process = t.process) :
    writtenPlaces ctx vars t' = writtenPlaces ctx vars t := by
  funext entry
  have hplace : ∀ text, t'.place text = t.place text := FileTree.place_congr hbase
  rw [writtenPlaces, writtenPlaces]
  simp only [hplace, hprocess]

theorem WritesEntry.changesOnly (h : WritesEntry ctx vars entry t t') :
    t.ChangesOnly (writtenPlaces ctx vars t entry) t' := by
  obtain ⟨p, text, hcomes, hstored⟩ := h
  cases hcomes with
  | rendered _ _ _ hdestination =>
    rw [writtenPlaces_of_ok hdestination]
    exact hstored.changesOnly

theorem WritesEntry.hasDirectories (h : WritesEntry ctx vars entry t t') :
    FileTree.HasDirectories t t' := by
  obtain ⟨p, text, -, hstored⟩ := h
  exact hstored.directories

namespace WritesAll

theorem changesOnly (h : WritesAll ctx vars entries t now) :
    t.ChangesOnly (entries.flatMap (writtenPlaces ctx vars t)) now := by
  induction h with
  | nil => exact .refl _ _
  | cons hentry _ ih =>
    have hfirst := hentry.changesOnly
    rw [writtenPlaces_congr hfirst.base hfirst.process] at ih
    exact hfirst.trans ih

theorem hasDirectories (h : WritesAll ctx vars entries t now) : FileTree.HasDirectories t now := by
  induction h with
  | nil => exact .refl _
  | cons hentry _ ih => exact hentry.hasDirectories.trans ih

end WritesAll

/-! ## Texts -/

/-- The place that the source of an entry is read at, if it has a text. -/
def sourcePlaces (ctx : Context) (vars : Fields) (t : FileTree) (entry : String × String) :
    List Place :=
  match ctx.renderer.render entry.2 vars with
  | .ok source => [t.place (Path.ofText source).text]
  | .error _ => []

theorem sourcePlaces_of_ok {source : String} (h : ctx.renderer.render entry.2 vars = .ok source)
    (t : FileTree) : sourcePlaces ctx vars t entry = [t.place (Path.ofText source).text] := by
  rw [sourcePlaces, h]

theorem sourcePlaces_congr (hbase : t'.base = t.base) :
    sourcePlaces ctx vars t' = sourcePlaces ctx vars t := by
  funext entry
  have hplace : ∀ text, t'.place text = t.place text := FileTree.place_congr hbase
  rw [sourcePlaces, sourcePlaces]
  simp only [hplace]

/-- No two entries write at one place, and none of them writes where one of them reads. -/
structure EntriesApart (ctx : Context) (vars : Fields) (t : FileTree)
    (entries : List (String × String)) : Prop where
  written : entries.Pairwise fun a b =>
    (writtenPlaces ctx vars t a).Disjoint (writtenPlaces ctx vars t b)
  read : ∀ a ∈ entries, ∀ b ∈ entries,
    (writtenPlaces ctx vars t a).Disjoint (sourcePlaces ctx vars t b)

namespace EntriesApart

theorem congr (h : EntriesApart ctx vars t entries) (hbase : t'.base = t.base)
    (hprocess : t'.process = t.process) : EntriesApart ctx vars t' entries where
  written := by
    rw [writtenPlaces_congr hbase hprocess]
    exact h.written
  read := by
    rw [writtenPlaces_congr hbase hprocess, sourcePlaces_congr hbase]
    exact h.read

theorem tail (h : EntriesApart ctx vars t (entry :: entries)) : EntriesApart ctx vars t entries where
  written := (List.pairwise_cons.mp h.written).2
  read a ha b hb := h.read a (List.mem_cons_of_mem _ ha) b (List.mem_cons_of_mem _ hb)

theorem front {done rest : List (String × String)}
    (h : EntriesApart ctx vars t (done ++ entry :: rest)) : EntriesApart ctx vars t done where
  written := (List.pairwise_append.mp h.written).1
  read a ha b hb := h.read a (List.mem_append_left _ ha) b (List.mem_append_left _ hb)

end EntriesApart

/-- At the destination of an entry the second tree has the rendering of the text that the first tree
has at its source. -/
inductive HoldsEntry (ctx : Context) (vars : Fields) (entry : String × String) (t t' : FileTree) :
    Prop where
  | rendered {source template text destination : String} :
      ctx.renderer.render entry.2 vars = .ok source →
      t.bytesAt (t.place (Path.ofText source).text) = some template.toUTF8 →
      ctx.renderer.render template vars = .ok text →
      ctx.renderer.render entry.1 vars = .ok destination →
      t'.textAt (templateDestination ctx.settings destination) = .ok text →
      HoldsEntry ctx vars entry t t'

/-- Entries that keep apart all have their texts in the end. -/
theorem WritesAll.holds (h : WritesAll ctx vars entries t now)
    (hapart : EntriesApart ctx vars t entries) :
    ∀ entry ∈ entries, HoldsEntry ctx vars entry t now := by
  induction h with
  | nil => exact fun _ hmem => nomatch hmem
  | @cons first rest t t₁ now hfirst hrest ih =>
    have hframe := hfirst.changesOnly
    have hplace : ∀ text, t₁.place text = t.place text := FileTree.place_congr hframe.base
    intro entry hmem
    rcases List.mem_cons.mp hmem with rfl | hlater
    · -- what was written first is not written over by the others
      obtain ⟨p, text, hcomes, hstored⟩ := hfirst
      cases hcomes with
      | @rendered source template _ destination hsource hread htext hdestination =>
        refine .rendered hsource (bytesAt_of_textAt hread) htext hdestination (textAt_of_read ?_)
        refine hrest.hasDirectories.read (hrest.changesOnly.bytesAt ?_) hstored.read
        rw [writtenPlaces_congr hframe.base hframe.process, hplace]
        intro hover
        obtain ⟨b, hb, hq⟩ := List.mem_flatMap.mp hover
        refine (List.pairwise_cons.mp hapart.written).1 b hb ?_ hq
        rw [writtenPlaces_of_ok hdestination]
        exact List.mem_cons_of_mem _ List.mem_cons_self
    · -- the others find their sources as they were
      cases ih (hapart.tail.congr hframe.base hframe.process) entry hlater with
      | @rendered source template text destination hsource hbytes htext hdestination hholds =>
        refine .rendered hsource ?_ htext hdestination hholds
        rw [← hbytes, hplace, hframe.bytesAt]
        intro hover
        refine hapart.read _ List.mem_cons_self entry hmem hover ?_
        rw [sourcePlaces_of_ok hsource]
        exact List.mem_cons_self

/-- An entry that fails leaves the texts of the others. -/
theorem HoldsEntry.of_stopsAt (h : HoldsEntry ctx vars other t now)
    (hstops : StopsAt ctx vars entry now e t')
    (hapart : (writtenPlaces ctx vars now other).Disjoint (writtenPlaces ctx vars now entry)) :
    HoldsEntry ctx vars other t t' := by
  cases h with
  | @rendered source template text destination hsource hbytes htext hdestination hholds =>
    refine .rendered hsource hbytes htext hdestination ?_
    rcases hstops.keeps with rfl | ⟨destination', hdestination', hkeeps⟩
    · exact hholds
    · obtain ⟨bytes, hread, hutf⟩ := bind_eq_ok.mp (mapError_eq_ok.mp hholds)
      refine mapError_eq_ok.mpr (bind_eq_ok.mpr ⟨bytes, hkeeps.read _ _ ?_ hread, hutf⟩)
      rw [writtenPlaces_of_ok hdestination, writtenPlaces_of_ok hdestination'] at hapart
      intro hsame
      refine hapart (List.mem_cons_of_mem _ List.mem_cons_self) ?_
      rw [hsame]
      exact List.mem_cons_self

/-! ## The templates of a host -/

/-- With a view on the host, its entries are gone through. -/
theorem writeHostTemplates_of_view {host : Host} {view : Blended}
    (hview : ctx.resolver.blend (.host host) false = .ok view) (t : FileTree) :
    writeHostTemplates ctx host t =
      (host.templateFiles.entries.forM (writeHostTemplate ctx view.values) >>= fun _ =>
        pure host.templateFiles.size) t := by
  rw [writeHostTemplates]
  by_cases hempty : host.templateFiles.isEmpty = true
  · have hentries : host.templateFiles.entries = [] := List.isEmpty_iff.mp hempty
    rw [if_pos hempty, TemplateFiles.size, hentries]
    rfl
  · rw [if_neg hempty, run_bind, Change.inspect, hview]
    rfl

/-- Without a view nothing is written, and it is an error if the host has templates. -/
theorem writeHostTemplates_of_error {host : Host} {e : RegistryError}
    (hview : ctx.resolver.blend (.host host) false = .error e) (t : FileTree) :
    writeHostTemplates ctx host t =
      (if host.templateFiles.isEmpty then .ok 0 else .error (.registry e), t) := by
  rw [writeHostTemplates]
  by_cases hempty : host.templateFiles.isEmpty = true
  · rw [if_pos hempty, if_pos hempty]
    rfl
  · rw [if_neg hempty, if_neg hempty, run_bind, Change.inspect, hview]
    rfl

/-- Templates are written entry by entry and never half.  There is a view on every host of a valid
registry, and where there is one its entries are written with the variables of it, in their order.
Either all of them are, and their number is returned, or those before the first that fails, and its
error is returned; then no file has changed on behalf of this one or a later one but the temporary one
beside its destination.  If the entries keep apart, each that was written has its text in the end, made
from the text that its source had in the beginning. -/
theorem writeHostTemplates_entrywise (settings : Settings) (registry : Registry) (strict : Bool)
    (host : Host) (t : FileTree) :
    let ctx := Context.standard settings registry strict
    let entries := host.templateFiles.entries
    (registry.Valid → host ∈ registry.hosts →
      ∃ view, ctx.resolver.blend (.host host) false = .ok view) ∧
    (∀ e, ctx.resolver.blend (.host host) false = .error e → writeHostTemplates ctx host t =
      (if host.templateFiles.isEmpty then .ok 0 else .error (.registry e), t)) ∧
    ∀ view, ctx.resolver.blend (.host host) false = .ok view →
      ∃ r t' done now, writeHostTemplates ctx host t = (r, t') ∧
        WritesAll ctx view.values done t now ∧
        ((r = .ok entries.length ∧ done = entries ∧ t' = now) ∨
          ∃ entry rest e, r = .error e ∧ entries = done ++ entry :: rest ∧
            StopsAt ctx view.values entry now e t') ∧
        (EntriesApart ctx view.values t entries →
          ∀ entry ∈ done, HoldsEntry ctx view.values entry t t') := by
  intro ctx entries
  refine ⟨fun hvalid hhost => ?_, fun e herror => writeHostTemplates_of_error herror t,
    fun view hview => ?_⟩
  · obtain ⟨d, hd⟩ := hvalid.findDistro? hhost
    exact Resolver.blend_host settings hd false
  · rcases hrun : entries.forM (writeHostTemplate ctx view.values) t with ⟨r, t'⟩
    obtain ⟨done, now, hall, hend⟩ := exists_writesAll hrun
    have htemplates := writeHostTemplates_of_view hview t
    rw [run_bind, hrun] at htemplates
    rcases hend with ⟨rfl, rfl, rfl⟩ | ⟨entry, rest, e, rfl, hentries, hstops⟩
    · exact ⟨_, _, entries, t', htemplates, hall, .inl ⟨rfl, rfl, rfl⟩, hall.holds⟩
    · refine ⟨_, _, done, now, htemplates, hall, .inr ⟨entry, rest, e, rfl, hentries, hstops⟩, ?_⟩
      intro hapart written hwritten
      rw [hentries] at hapart
      have hframe := hall.changesOnly
      refine (hall.holds hapart.front written hwritten).of_stopsAt hstops ?_
      rw [writtenPlaces_congr hframe.base hframe.process]
      exact (List.pairwise_append.mp hapart.written).2.2 written hwritten entry List.mem_cons_self

/-- A host with two templates. -/
def twoTemplatesHost : Host where
  name := "h"
  distro := "d"
  templateFiles := .ofList [("x/{{ name }}", "s"), ("y", "z")]

def twoTemplatesContext : Context :=
  .standard { tftpRoot := "b" }
    { distros := [{ name := "d", kernel := "k", initrd := "i" }], hosts := [twoTemplatesHost] } true

/-- The tree that has the source of the first one only. -/
def oneSourceTree : FileTree :=
  (FileTree.empty [] "13").put "s" [] (.file "I am {{ name }}.".toUTF8)

example :
    let run := writeHostTemplates twoTemplatesContext twoTemplatesHost oneSourceTree
    run.1 = .error (.file (.io "z" .notFound)) ∧
      run.2.textAt (.ofText "b/x/h") = .ok "I am h." := by decide +kernel

end BootTree.Pxe
