/-
  Module names of the older form, `authn_`, `authz_` and `manage_` in front of a name, and their
  dotted successors.

  A name of the older form is one only where a word starts: at the start of the text, or behind a
  character that belongs to no word.
-/
import BootTree.Text.Class

namespace BootTree.ModuleNames

/-- The older forms, and what replaces each. -/
def renames : List (List Char × List Char) :=
  [("authn_".toList, "authentication.".toList),
   ("authz_".toList, "authorization.".toList),
   ("manage_".toList, "managers.".toList)]

/-- The older form that a text starts with. -/
def legacy? (cs : List Char) : Option (List Char × List Char) :=
  renames.find? fun r => r.1.isPrefixOf cs

/-- Replaces the older forms in a text. `inWord` tells whether the character before belongs to a
word, `skip` how many characters are still part of a form already replaced. -/
def renameFrom (inWord : Bool) (skip : Nat) : List Char → List Char × Nat
  | [] => ([], 0)
  | c :: rest =>
    match skip with
    | skip + 1 => renameFrom (Text.isWord c) skip rest
    | 0 =>
      match if inWord then none else legacy? (c :: rest) with
      | some (old, new) =>
        let (tail, count) := renameFrom (Text.isWord c) (old.length - 1) rest
        (new ++ tail, count + 1)
      | none =>
        let (tail, count) := renameFrom (Text.isWord c) 0 rest
        (c :: tail, count)

/-- The text with every name in its newer form, and the number of names changed. -/
def rename (content : String) : String × Nat :=
  let (renamed, count) := renameFrom false 0 content.toList
  (String.ofList renamed, count)

end BootTree.ModuleNames
