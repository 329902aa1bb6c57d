/-
  Where the boot files of a host are.

  1. **Writing** — the boot files of a host are written one after the other, all with one content,
     until one of them cannot be written (`exists_written`).  Temporary files aside, the places that the
     names written so far lead to have this content afterwards, and no other file changes (`Written`).

  2. **Staying** — a host stays in the directory of the boot files if no file elsewhere changes, and in
     the directory none that has no number in front (`StaysInPlace`).  What decides is where the names
     lead (`writeHostConfig_stays_iff`): addresses without slashes make names of one segment, which
     cannot lead out, while an address may go up and down through slashes to any file
     (`writeHostConfig_may_leave`).
-/
import BootTree.Proofs.Sync.Partial

namespace BootTree.Pxe

variable {ctx : Context} {host : Host} {menu : Menu} {t t' : FileTree} {q : Place}

/-! ## Writing -/

/-- The place that the name of a boot file leads to. -/
def hostFilePlace (ctx : Context) (t : FileTree) (name : String) : Place :=
  t.place (bootPath ctx name).text

/-- The place of the temporary file beside a boot file of the host. -/
def IsHostTemporary (ctx : Context) (host : Host) (t : FileTree) (q : Place) : Prop :=
  ∃ name ∈ bootFileNames host, q = t.place (temporaryPath t.process (bootPath ctx name))

section OneFile

variable {name content : String}

/-- One boot file that is written is the only one that changes, its temporary file aside. -/
theorem bytesAt_of_writeText_ok {u : Unit}
    (h : ofFiles (writeText (bootPath ctx name) content) t = (.ok u, t'))
    (hq : q ≠ t.place (temporaryPath t.process (bootPath ctx name))) : t'.bytesAt q =
      if q = hostFilePlace ctx t name then some content.toUTF8 else t.bytesAt q := by
  have hwrite := Change.mapError_eq_ok.mp h
  rw [bytesAt_of_writeAtomic_ok hwrite, if_neg hq]
  rfl

/-- One that cannot be written changes no file, its temporary file aside. -/
theorem bytesAt_of_writeText_error {e : SyncError}
    (h : ofFiles (writeText (bootPath ctx name) content) t = (.error e, t'))
    (hq : q ≠ t.place (temporaryPath t.process (bootPath ctx name))) : t'.bytesAt q = t.bytesAt q := by
  obtain ⟨e', hwrite, -⟩ := Change.mapError_eq_error.mp h
  rcases bytesAt_of_writeAtomic_error hwrite with hsame | hleft
  · exact hsame q
  · rw [hleft, if_neg hq]

end OneFile

/-- Boot files of one content are written in turn, and what was written before one fails stays. -/
theorem exists_written {names : List String} {content : String} {r : Except SyncError Unit}
    (h : (names.forM fun name => ofFiles (writeText (bootPath ctx name) content)) t = (r, t')) :
    ∃ done, done <+: names ∧ (r = .ok () → done = names) ∧
      ∀ q, (∀ name ∈ names, q ≠ t.place (temporaryPath t.process (bootPath ctx name))) →
        t'.bytesAt q = if q ∈ done.map (hostFilePlace ctx t) then some content.toUTF8
          else t.bytesAt q := by
  induction names generalizing t with
  | nil =>
    cases h
    exact ⟨[], List.prefix_refl [], fun _ => rfl, fun q _ => rfl⟩
  | cons name rest ih =>
    have hchain : (ofFiles (writeText (bootPath ctx name) content) >>= fun _ =>
        rest.forM fun name => ofFiles (writeText (bootPath ctx name) content)) t = (r, t') := h
    rw [run_bind] at hchain
    rcases hfirst : ofFiles (writeText (bootPath ctx name) content) t with ⟨r₁, t₁⟩
    rw [hfirst] at hchain
    cases r₁ with
    | error e =>
      cases hchain
      exact ⟨[], List.nil_prefix, nofun, fun q hq =>
        bytesAt_of_writeText_error hfirst (hq name List.mem_cons_self)⟩
    | ok u =>
      obtain ⟨hbase, hprocess⟩ := base_of_writeAtomic (Change.mapError_eq_ok.mp hfirst)
      have hplace : ∀ text, t₁.place text = t.place text := FileTree.place_congr hbase
      have hplaces : hostFilePlace ctx t₁ = hostFilePlace ctx t := funext fun name => hplace _
      obtain ⟨done, hdone, hall, hbytes⟩ := ih hchain
      refine ⟨name :: done, List.cons_prefix_cons.mpr ⟨rfl, hdone⟩,
        fun hr => congrArg (name :: ·) (hall hr), fun q hq => ?_⟩
      have hrest : ∀ other ∈ rest,
          q ≠ t₁.place (temporaryPath t₁.process (bootPath ctx other)) := by
        intro other hother
        rw [hprocess, hplace]
        exact hq other (List.mem_cons_of_mem name hother)
      rw [hbytes q hrest, hplaces, List.map_cons,
        bytesAt_of_writeText_ok hfirst (hq name List.mem_cons_self)]
      -- a place that comes again later has the same content
      by_cases hlater : q ∈ done.map (hostFilePlace ctx t)
      · rw [if_pos hlater, if_pos (List.mem_cons_of_mem _ hlater)]
      · rw [if_neg hlater]
        by_cases hsame : q = hostFilePlace ctx t name
        · rw [if_pos hsame, if_pos (List.mem_cons.mpr (.inl hsame))]
        · rw [if_neg hsame, if_neg (List.not_mem_cons_of_ne_of_not_mem hsame hlater)]

/-- A host without a content has nothing written. -/
theorem writeHostConfig_of_error {e : SyncError} (h : hostConfig host menu = .error e)
    (t : FileTree) : writeHostConfig ctx host menu t = (.error e, t) := by
  rw [writeHostConfig, run_bind, Change.inspect, h]

theorem writeHostConfig_of_ok {content : String} (h : hostConfig host menu = .ok content)
    (t : FileTree) : writeHostConfig ctx host menu t =
      ((bootFileNames host).forM fun name => ofFiles (writeText (bootPath ctx name) content)) t := by
  rw [writeHostConfig, run_bind, Change.inspect, h]
  rfl

/-- The first boot files of a host, with these names, were written with this content.  Temporary files
aside every other file is as it was. -/
structure Written (ctx : Context) (host : Host) (content : String) (names : List String)
    (t t' : FileTree) : Prop where
  first : names <+: bootFileNames host
  bytesAt : ∀ q, ¬ IsHostTemporary ctx host t q → t'.bytesAt q =
    if q ∈ names.map (hostFilePlace ctx t) then some content.toUTF8 else t.bytesAt q

theorem written_of_writeHostConfig {content : String} (h : hostConfig host menu = .ok content)
    (ctx : Context) (t : FileTree) : ∃ names,
      Written ctx host content names t (writeHostConfig ctx host menu t).2 ∧
        ((writeHostConfig ctx host menu t).1 = .ok () → names = bootFileNames host) := by
  obtain ⟨names, hnames, hall, hbytes⟩ := exists_written (writeHostConfig_of_ok h t).symm
  exact ⟨names, ⟨hnames, fun q hq => hbytes q fun name hname he => hq ⟨name, hname, he⟩⟩, hall⟩

/-! ## Staying -/

/-- A place directly in the directory of the boot files, under a name with the number in front. -/
def IsNumbered (s : Settings) (t : FileTree) (q : Place) : Prop :=
  ∃ address, q = ("01-" ++ address) :: t.place (configDirectory s).text

/-- Temporary files aside, every file that has other bytes afterwards is at such a place. -/
def StaysInPlace (ctx : Context) (host : Host) (t t' : FileTree) : Prop :=
  ∀ q, ¬ IsHostTemporary ctx host t q → t'.bytesAt q ≠ t.bytesAt q → IsNumbered ctx.settings t q

theorem Written.staysInPlace_iff {content : String} {names : List String}
    (h : Written ctx host content names t t') : StaysInPlace ctx host t t' ↔ ∀ name ∈ names,
      IsNumbered ctx.settings t (hostFilePlace ctx t name) ∨
        t.bytesAt (hostFilePlace ctx t name) = some content.toUTF8 ∨
        IsHostTemporary ctx host t (hostFilePlace ctx t name) := by
  constructor
  · intro hstays name hname
    by_cases htemporary : IsHostTemporary ctx host t (hostFilePlace ctx t name)
    · exact .inr (.inr htemporary)
    · by_cases hsame : t.bytesAt (hostFilePlace ctx t name) = some content.toUTF8
      · exact .inr (.inl hsame)
      · refine .inl (hstays _ htemporary ?_)
        rw [h.bytesAt _ htemporary, if_pos (List.mem_map_of_mem hname)]
        exact Ne.symm hsame
  · intro hnames q hq hne
    rw [h.bytesAt q hq] at hne
    split at hne
    · next hmem =>
      obtain ⟨name, hname, rfl⟩ := List.mem_map.mp hmem
      rcases hnames name hname with hnumbered | hsame | htemporary
      · exact hnumbered
      · exact absurd hsame.symm hne
      · exact absurd htemporary hq
    · exact absurd rfl hne

/-- An address without slashes leads to a numbered place. -/
theorem isNumbered_of_mem (h : HasPlainAddresses host) {name : String}
    (hname : name ∈ bootFileNames host) (t : FileTree) :
    IsNumbered ctx.settings t (hostFilePlace ctx t name) := by
  rw [hostFilePlace, place_bootPath t (isBootFileName_of_mem h hname)]
  obtain ⟨i, -, hnamed⟩ := List.mem_filterMap.mp hname
  obtain ⟨mac, address, -, rfl, -⟩ := Interface.bootFileName?_eq_some hnamed
  exact ⟨String.ofList address, rfl⟩

/-- The menu is at no numbered place. -/
theorem not_isNumbered_menuPath (s : Settings) (t : FileTree) :
    ¬ IsNumbered s t (t.place (menuPath s).text) := by
  rintro ⟨address, hq⟩
  rw [menuPath, FileTree.place_join_of_isPlain isPlain_default] at hq
  have hlist := congrArg String.toList (List.cons.inj hq).1
  rw [String.toList_append] at hlist
  cases hlist

/-- Nor is it a temporary file of a host whose addresses have no slashes. -/
theorem not_isHostTemporary_menuPath (h : HasPlainAddresses host) (t : FileTree) :
    ¬ IsHostTemporary ctx host t (t.place (menuPath ctx.settings).text) := by
  rintro ⟨name, hname, hq⟩
  have hdefault : IsBootFileName "default" := ⟨isPlain_default, by decide⟩
  rw [place_temporaryPath_bootPath t (isBootFileName_of_mem h hname).plain, menuPath,
    FileTree.place_join_of_isPlain isPlain_default] at hq
  exact hdefault.ne_temporaryName t.process.tag name (List.cons.inj hq).1

/-- A host whose addresses have no slashes stays in place, whatever comes of it. -/
theorem staysInPlace_of_plainAddresses (h : HasPlainAddresses host) (ctx : Context) (menu : Menu)
    (t : FileTree) : StaysInPlace ctx host t (writeHostConfig ctx host menu t).2 := by
  cases hcontent : hostConfig host menu with
  | ok content =>
    obtain ⟨names, hwritten, -⟩ := written_of_writeHostConfig hcontent ctx t
    exact hwritten.staysInPlace_iff.mpr fun name hname =>
      .inl (isNumbered_of_mem h (hwritten.first.subset hname) t)
  | error e =>
    rw [writeHostConfig_of_error hcontent]
    exact fun q _ hne => absurd rfl hne

/-- Whether a host stays in place is decided by the names that were written, which are all of its names
unless one fails.  Each of them has to lead to a numbered place, or to a file that had the content
already or is a temporary file.  So a host whose addresses have no slashes stays in place, whatever
comes of it, and leaves the menu as it is.  Where there is no content for the host nothing is touched.
-/
theorem writeHostConfig_stays_iff (ctx : Context) (host : Host) (menu : Menu) (t : FileTree) :
    let run := writeHostConfig ctx host menu t
    (∀ content, hostConfig host menu = .ok content → ∃ names,
      Written ctx host content names t run.2 ∧
      (run.1 = .ok () → names = bootFileNames host) ∧
      (StaysInPlace ctx host t run.2 ↔ ∀ name ∈ names,
        IsNumbered ctx.settings t (hostFilePlace ctx t name) ∨
          t.bytesAt (hostFilePlace ctx t name) = some content.toUTF8 ∨
          IsHostTemporary ctx host t (hostFilePlace ctx t name))) ∧
    (HasPlainAddresses host → StaysInPlace ctx host t run.2 ∧
      run.2.bytesAt (t.place (menuPath ctx.settings).text) =
        t.bytesAt (t.place (menuPath ctx.settings).text)) ∧
    ∀ e, hostConfig host menu = .error e → run = (.error e, t) := by
  refine ⟨fun content hcontent => ?_, fun hplain => ?_, fun e he => writeHostConfig_of_error he t⟩
  · obtain ⟨names, hwritten, hall⟩ := written_of_writeHostConfig hcontent ctx t
    exact ⟨names, hwritten, hall, hwritten.staysInPlace_iff⟩
  · have hstays := staysInPlace_of_plainAddresses hplain ctx menu t
    refine ⟨hstays, ?_⟩
    by_contra hne
    exact not_isNumbered_menuPath ctx.settings t
      (hstays _ (not_isHostTemporary_menuPath hplain t) hne)

/-- A host that boots from its own disk, with an address that goes up to the menu. -/
def climbingHost : Host where
  name := "h"
  distro := "d"
  netboot := false
  interfaces := [{ name := "eth0", macAddress := some "x/../default" }]

def climbingAdditions : List Addition :=
  [.distro { name := "d", kernel := "k", initrd := "i" }, .host climbingHost]

def climbingContext : Context :=
  .standard { tftpRoot := "boot" } (Addition.runAll climbingAdditions .empty) false

/-- A boot tree with a menu and a directory beside it. -/
def climbingTree : FileTree :=
  let t := (FileTree.empty [] "6").put "boot" [] .directory
  let t := t.put "pxelinux.cfg" ["boot"] .directory
  let t := t.put "default" ["pxelinux.cfg", "boot"] (.file "MENU".toUTF8)
  t.put "01-x" ["pxelinux.cfg", "boot"] .directory

/-- The registry takes the host, and its boot file is written over the menu. -/
theorem writeHostConfig_may_leave : ¬ ∀ (settings : Settings) (calls : List Addition) (host : Host)
    (menu : Menu) (t : FileTree), host ∈ (Addition.runAll calls .empty).hosts →
      let ctx := Context.standard settings (Addition.runAll calls .empty) false
      StaysInPlace ctx host t (writeHostConfig ctx host menu t).2 := by
  intro hall
  have hmem : climbingHost ∈ (Addition.runAll climbingAdditions .empty).hosts := by decide +kernel
  have hstays : StaysInPlace climbingContext climbingHost climbingTree
      (writeHostConfig climbingContext climbingHost ⟨"", []⟩ climbingTree).2 :=
    hall { tftpRoot := "boot" } climbingAdditions climbingHost ⟨"", []⟩ climbingTree hmem
  have hmenu : climbingTree.place (menuPath climbingContext.settings).text =
      ["default", "pxelinux.cfg", "boot"] := by decide +kernel
  have hchanged : (writeHostConfig climbingContext climbingHost ⟨"", []⟩ climbingTree).2.bytesAt
      ["default", "pxelinux.cfg", "boot"] ≠
        climbingTree.bytesAt ["default", "pxelinux.cfg", "boot"] := by decide +kernel
  have htemporary : ¬ IsHostTemporary climbingContext climbingHost climbingTree
      ["default", "pxelinux.cfg", "boot"] := by
    rintro ⟨name, hname, hq⟩
    have hall : ∀ name ∈ bootFileNames climbingHost, ["default", "pxelinux.cfg", "boot"] ≠
        climbingTree.place (temporaryPath climbingTree.process (bootPath climbingContext name)) := by
      decide +kernel
    exact hall name hname hq
  exact not_isNumbered_menuPath climbingContext.settings climbingTree
    (hmenu ▸ hstays _ htemporary hchanged)

end BootTree.Pxe
