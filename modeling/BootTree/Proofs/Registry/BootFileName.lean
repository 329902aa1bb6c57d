/-
  The names of boot files.

  Such a name is a hardware address in lower case, with dashes, behind a number.  Lower-casing brings
  in letters only (`eq_of_mem_lowerChar`), so what is not a letter in the name was in the address,
  and an address without slashes makes a name that is one segment of a path.
-/
import BootTree.Proofs.Files.Join
import BootTree.Registry.Record

namespace BootTree

namespace Text

variable {c d : Char}

theorem mem_of_mem_trim {cs : List Char} (h : c ∈ trim cs) : c ∈ cs := by
  rw [trim, trimEnd, List.mem_reverse] at h
  have hend := (List.dropWhile_sublist isBlank).subset h
  exact (List.dropWhile_sublist isBlank).subset (List.mem_reverse.mp hend)

/-! ## Lower case -/

/-- A capital of ASCII becomes a small letter. -/
theorem toLower_cases (c : Char) : c.toLower = c ∨ 97 ≤ c.toLower.toNat := by
  by_cases hupper : c.val ≥ 'A'.val ∧ c.val ≤ 'Z'.val
  · have hlow : 65 ≤ c.val.toNat := UInt32.le_iff_toNat_le.mp hupper.1
    have hhigh : c.val.toNat ≤ 90 := UInt32.le_iff_toNat_le.mp hupper.2
    have hshift : (c.val + ('a'.val - 'A'.val)).toNat = c.val.toNat + 32 := by
      rw [UInt32.toNat_add]
      exact Nat.mod_eq_of_lt (by show c.val.toNat + 32 < _; omega)
    have hlower : c.toLower.val = c.val + ('a'.val - 'A'.val) := congrArg Char.val (dif_pos hupper)
    refine .inr ?_
    show 97 ≤ c.toLower.val.toNat
    rw [hlower, hshift]
    omega
  · exact .inl (dif_neg hupper)

/-- A number that is no code point stands for the zero character. -/
theorem toNat_ofNat_cases (n : Nat) : (Char.ofNat n).toNat = n ∨ (Char.ofNat n).toNat = 0 := by
  by_cases hvalid : n.isValidChar
  · exact .inl (congrArg Char.toNat (dif_pos hvalid))
  · exact .inr (congrArg Char.toNat (dif_neg hvalid))

/-- No letter of the table has a lower-case form before the small letters of ASCII. -/
theorem le_of_mem_lowercaseRuns : ∀ run ∈ lowercaseRuns, 97 ≤ (run.1 : Int) + run.2.2.2 := by
  decide +kernel

/-- Lower-casing brings in no character that comes before the small letters. -/
theorem eq_of_mem_lowerChar (h : d ∈ lowerChar c) (hpos : 0 < d.toNat) (hlow : d.toNat < 97) :
    d = c := by
  rw [lowerChar] at h
  split at h
  · rw [List.mem_singleton] at h
    rcases toLower_cases c with hsame | hletter
    · rw [h, hsame]
    · rw [h] at hlow
      omega
  · split at h
    · -- the capital with a dot becomes a small letter and a mark
      rcases List.mem_pair.mp h with rfl | rfl
      · exact absurd hlow (by decide)
      · exact absurd hlow (by decide)
    · split at h
      · next first last step shift hrun =>
        have hrange := List.find?_some hrun
        simp only [Bool.and_eq_true, decide_eq_true_eq] at hrange
        have htable := le_of_mem_lowercaseRuns _ (List.mem_of_find?_eq_some hrun)
        dsimp only at htable
        rw [List.mem_singleton.mp h] at hpos hlow
        rcases toNat_ofNat_cases ((c.toNat : Int) + shift).toNat with hcode | hcode
        · omega
        · omega
      · exact List.mem_singleton.mp h

theorem mem_of_mem_lowerFrom {before cs : List Char} (h : d ∈ lowerFrom before cs)
    (hpos : 0 < d.toNat) (hlow : d.toNat < 97) : d ∈ cs := by
  induction cs generalizing before with
  | nil => cases h
  | cons c rest ih =>
    rw [lowerFrom] at h
    rcases List.mem_append.mp h with hfirst | hrest
    · split at hfirst
      · -- a sigma, whatever its form
        rw [List.mem_singleton] at hfirst
        split at hfirst
        · rw [hfirst] at hlow
          exact absurd hlow (by decide)
        · rw [hfirst] at hlow
          exact absurd hlow (by decide)
      · rw [eq_of_mem_lowerChar hfirst hpos hlow]
        exact List.mem_cons_self
    · exact List.mem_cons_of_mem _ (ih hrest)

end Text

/-! ## Names -/

/-- A name that a boot file can have: a single segment that is not hidden. -/
structure IsBootFileName (name : String) : Prop where
  plain : Path.IsPlain name
  visible : name.toList.head? ≠ some '.'

/-- No temporary file has such a name. -/
theorem IsBootFileName.ne_temporaryName {name : String} (h : IsBootFileName name)
    (tag other : String) : name ≠ temporaryName tag other := by
  rintro rfl
  exact h.visible (by simp [temporaryName])

/-- What is neither letter nor dash nor of the number in the name of a boot file was in the
address. -/
theorem Interface.bootFileName?_eq_some {i : Interface} {name : String}
    (h : i.bootFileName? = some name) : ∃ mac address, i.macAddress = some mac ∧
      name = "01-" ++ String.ofList address ∧
      ∀ d ∈ address, d ≠ '-' → 0 < d.toNat → d.toNat < 97 → d ∈ mac.toList := by
  obtain ⟨mac, hmac, hname⟩ := Option.bind_eq_some_iff.mp h
  split at hname
  · cases hname
  · next address htrim =>
    refine ⟨mac, _, hmac, (Option.some.inj hname).symm, fun d hd hdash hpos hlow => ?_⟩
    obtain ⟨c, hc, hcd⟩ := List.mem_map.mp hd
    split at hcd
    · exact absurd hcd.symm hdash
    · rw [hcd, Text.lowercase, String.toList_ofList, String.toList_ofList] at hc
      exact Text.mem_of_mem_trim (Text.mem_of_mem_lowerFrom hc hpos hlow)

/-- An address without slashes makes a name of one segment. -/
theorem Interface.isBootFileName {i : Interface} {name : String} (h : i.bootFileName? = some name)
    (hmac : ∀ mac, i.macAddress = some mac → '/' ∉ mac.toList ∧ '\\' ∉ mac.toList) :
    IsBootFileName name := by
  obtain ⟨mac, address, hhas, rfl, hchars⟩ := bootFileName?_eq_some h
  obtain ⟨hslash, hbackslash⟩ := hmac mac hhas
  have hlist : ("01-" ++ String.ofList address).toList = '0' :: '1' :: '-' :: address := by simp
  have hproper : ∀ s : String, s.toList.head? ≠ some '0' → "01-" ++ String.ofList address ≠ s := by
    rintro s hs rfl
    exact hs (by rw [hlist]; rfl)
  refine ⟨⟨⟨hproper _ (by decide), hproper _ (by decide), hproper _ (by decide)⟩, ?_, ?_⟩, ?_⟩
  · rw [hlist]
    simp only [List.mem_cons, not_or]
    refine ⟨by decide, by decide, by decide, fun hmem => hslash ?_⟩
    exact hchars '/' hmem (by decide) (by decide) (by decide)
  · rw [hlist]
    simp only [List.mem_cons, not_or]
    refine ⟨by decide, by decide, by decide, fun hmem => hbackslash ?_⟩
    exact hchars '\\' hmem (by decide) (by decide) (by decide)
  · rw [hlist, List.head?_cons]
    decide

end BootTree
