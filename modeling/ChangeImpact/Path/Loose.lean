import ChangeImpact.Path.Basic

/-!
# Paths in loose texts

A client may spell a path with surrogates that stand alone. Such a path leads to no file, yet it
has parts, and its parent marks are resolved like those of any other path, which may leave an
ordinary one.
-/

namespace ChangeImpact.Path

def looseParts (s : LooseText) : List LooseText :=
  ((Text.splitWhere (· == .char '/') s.points).map LooseText.mk).filter fun p =>
    p != "" && p != "."

def ofLooseParts (parts : List LooseText) : LooseText :=
  if parts.isEmpty then "." else .intercalate "/" parts

def looseInRepository (root : Path) (value : LooseText) : Except OutsideRoot LooseText :=
  match value.toString? with
  | some s => (root.inRepository s).map LooseText.ofString
  | none =>
    let anchor := anchorOf value.visible.toList
    let start := if anchor = .relative then root.parts.map LooseText.ofString else []
    let place := resolveParts (".." : LooseText) true [] (start ++ looseParts value)
    let home := root.normalise.parts.map LooseText.ofString
    if (anchor = .relative || anchor = root.anchor) && home.isPrefixOf place then
      .ok (ofLooseParts (place.drop home.length))
    else .error ⟨value, root⟩

end ChangeImpact.Path
