import UiMarkdown.Document.Fragment
import UiMarkdown.Proofs.Mask.Restored

/-!
# Restored fragments

Putting the expressions back into a fragment changes the texts in it, one by
one, and nothing else.  So what holds of restored texts holds of all texts of a
restored fragment, and the fragment keeps its shape.
-/

namespace UiMarkdown

namespace Fragment

/-! ## The texts of a fragment -/

mutual

def texts : Fragment → List String
  | .text value | .inlineCode value => [value]
  | .code lang value => lang.toList ++ [value]
  | .image url title alt => url :: title.toList ++ [alt]
  | .link url title cs => url :: title.toList ++ textsOfAll cs
  | .paragraph cs | .heading _ cs | .blockquote cs | .list _ _ _ cs | .listItem _ cs | .table cs
  | .tableRow cs | .tableCell cs | .emphasis cs | .strong cs | .delete cs => textsOfAll cs
  | .thematicBreak | .lineBreak => []

def textsOfAll : List Fragment → List String
  | [] => []
  | node :: more => texts node ++ textsOfAll more

end

mutual

def mapTexts (f : String → String) : Fragment → Fragment
  | .text value => .text (f value)
  | .inlineCode value => .inlineCode (f value)
  | .code lang value => .code (lang.map f) (f value)
  | .image url title alt => .image (f url) (title.map f) (f alt)
  | .link url title cs => .link (f url) (title.map f) (mapTextsOfAll f cs)
  | .paragraph cs => .paragraph (mapTextsOfAll f cs)
  | .heading depth cs => .heading depth (mapTextsOfAll f cs)
  | .blockquote cs => .blockquote (mapTextsOfAll f cs)
  | .list ordered start spread cs => .list ordered start spread (mapTextsOfAll f cs)
  | .listItem checked cs => .listItem checked (mapTextsOfAll f cs)
  | .table cs => .table (mapTextsOfAll f cs)
  | .tableRow cs => .tableRow (mapTextsOfAll f cs)
  | .tableCell cs => .tableCell (mapTextsOfAll f cs)
  | .emphasis cs => .emphasis (mapTextsOfAll f cs)
  | .strong cs => .strong (mapTextsOfAll f cs)
  | .delete cs => .delete (mapTextsOfAll f cs)
  | .thematicBreak => .thematicBreak
  | .lineBreak => .lineBreak

def mapTextsOfAll (f : String → String) : List Fragment → List Fragment
  | [] => []
  | node :: more => mapTexts f node :: mapTextsOfAll f more

end

/-- A fragment without its texts: its constructors and all fields that are no text. -/
def shapeOfAll (nodes : List Fragment) : List Fragment :=
  mapTextsOfAll (fun _ => "") nodes

mutual

/-- The texts of a changed node are the changed texts, in the same order. -/
theorem texts_mapTexts (f : String → String) :
    (node : Fragment) → (mapTexts f node).texts = node.texts.map f
  | .text _ | .inlineCode _ => by
      rw [mapTexts, texts, texts, List.map_singleton]
  | .thematicBreak | .lineBreak => by
      rw [mapTexts, texts, List.map_nil]
  | .code lang _ => by
      rw [mapTexts, texts, texts]
      cases lang <;> rfl
  | .image _ title _ => by
      rw [mapTexts, texts, texts]
      cases title <;> rfl
  | .link _ title cs => by
      rw [mapTexts, texts, texts, textsOfAll_mapTextsOfAll f cs]
      cases title <;> simp
  | .paragraph cs | .heading _ cs | .blockquote cs | .list _ _ _ cs | .listItem _ cs | .table cs
  | .tableRow cs | .tableCell cs | .emphasis cs | .strong cs | .delete cs => by
      rw [mapTexts, texts, texts, textsOfAll_mapTextsOfAll f cs]

theorem textsOfAll_mapTextsOfAll (f : String → String) :
    (nodes : List Fragment) → textsOfAll (mapTextsOfAll f nodes) = (textsOfAll nodes).map f
  | [] => by
      rw [mapTextsOfAll, textsOfAll, List.map_nil]
  | node :: more => by
      rw [mapTextsOfAll, textsOfAll, textsOfAll, texts_mapTexts f node,
        textsOfAll_mapTextsOfAll f more, List.map_append]

end

mutual

/-- Texts that are changed twice may be changed once. -/
theorem mapTexts_mapTexts (f g : String → String) :
    (node : Fragment) → mapTexts f (mapTexts g node) = mapTexts (f ∘ g) node
  | .text _ | .inlineCode _ => by
      rw [mapTexts, mapTexts, mapTexts]
      rfl
  | .thematicBreak | .lineBreak => by
      rw [mapTexts, mapTexts, mapTexts]
  | .code _ _ | .image _ _ _ => by
      rw [mapTexts, mapTexts, mapTexts, Option.map_map]
      rfl
  | .link _ _ cs => by
      rw [mapTexts, mapTexts, mapTexts, Option.map_map, mapTextsOfAll_mapTextsOfAll f g cs]
      rfl
  | .paragraph cs | .heading _ cs | .blockquote cs | .list _ _ _ cs | .listItem _ cs | .table cs
  | .tableRow cs | .tableCell cs | .emphasis cs | .strong cs | .delete cs => by
      rw [mapTexts, mapTexts, mapTexts, mapTextsOfAll_mapTextsOfAll f g cs]

theorem mapTextsOfAll_mapTextsOfAll (f g : String → String) :
    (nodes : List Fragment) →
      mapTextsOfAll f (mapTextsOfAll g nodes) = mapTextsOfAll (f ∘ g) nodes
  | [] => by
      rw [mapTextsOfAll, mapTextsOfAll, mapTextsOfAll]
  | node :: more => by
      rw [mapTextsOfAll, mapTextsOfAll, mapTextsOfAll, mapTexts_mapTexts f g node,
        mapTextsOfAll_mapTextsOfAll f g more]

end

/-! ## Restoring -/

mutual

/-- Restoring a node restores its texts. -/
theorem restore_eq_mapTexts (mask : Mask) :
    (node : Fragment) → node.restore mask = mapTexts mask.restoreString node
  | .text _ | .inlineCode _ | .code _ _ | .image _ _ _ | .thematicBreak | .lineBreak => by
      rw [restore, mapTexts]
  | .link _ _ cs
  | .paragraph cs | .heading _ cs | .blockquote cs | .list _ _ _ cs | .listItem _ cs | .table cs
  | .tableRow cs | .tableCell cs | .emphasis cs | .strong cs | .delete cs => by
      rw [restore, mapTexts, restoreAll_eq_mapTextsOfAll mask cs]

theorem restoreAll_eq_mapTextsOfAll (mask : Mask) :
    (nodes : List Fragment) → restoreAll mask nodes = mapTextsOfAll mask.restoreString nodes
  | [] => by
      rw [restoreAll, mapTextsOfAll]
  | node :: more => by
      rw [restoreAll, mapTextsOfAll, restore_eq_mapTexts mask node,
        restoreAll_eq_mapTextsOfAll mask more]

end

/-- Restoring keeps the shape of a fragment. -/
theorem shapeOfAll_restoreAll (mask : Mask) (nodes : List Fragment) :
    shapeOfAll (restoreAll mask nodes) = shapeOfAll nodes := by
  rw [restoreAll_eq_mapTextsOfAll, shapeOfAll, mapTextsOfAll_mapTextsOfAll]
  rfl

/-- No text of a restored fragment holds a live token. -/
theorem not_holdsToken_restoreAll {mask : Mask} (fresh : mask.Fresh) (nodes : List Fragment) :
    ∀ text ∈ textsOfAll (restoreAll mask nodes), ¬ mask.HoldsToken text.toList := by
  rw [restoreAll_eq_mapTextsOfAll, textsOfAll_mapTextsOfAll, List.forall_mem_map]
  exact fun text _ => fresh.not_holdsToken_restoreString text

theorem restoreAll_restoreAll {mask : Mask} (fresh : mask.Fresh) (nodes : List Fragment) :
    restoreAll mask (restoreAll mask nodes) = restoreAll mask nodes := by
  rw [restoreAll_eq_mapTextsOfAll, restoreAll_eq_mapTextsOfAll, mapTextsOfAll_mapTextsOfAll]
  congr 1
  funext text
  exact fresh.restoreString_restoreString text

end Fragment

namespace Mask

/--
Restoring with the mask of a text is complete and settles at once.  No text of
a fragment, and no text or key of a value, holds a live token afterwards; the
shape of the fragment stays; and restoring again changes nothing.
-/
theorem restoring_complete (x : List Char) :
    (∀ nodes : List Fragment,
      (∀ text ∈ Fragment.textsOfAll (Fragment.restoreAll (ofText x).2 nodes),
        ¬ (ofText x).2.HoldsToken text.toList) ∧
      Fragment.shapeOfAll (Fragment.restoreAll (ofText x).2 nodes) = Fragment.shapeOfAll nodes ∧
      Fragment.restoreAll (ofText x).2 (Fragment.restoreAll (ofText x).2 nodes) =
        Fragment.restoreAll (ofText x).2 nodes) ∧
    ∀ value : Json,
      (∀ text ∈ textsOf ((ofText x).2.restoreJson value), ¬ (ofText x).2.HoldsToken text) ∧
      (ofText x).2.restoreJson ((ofText x).2.restoreJson value) =
        (ofText x).2.restoreJson value := by
  have fresh := fresh_ofText x
  refine ⟨fun nodes => ⟨?_, ?_, ?_⟩, fun value => ⟨?_, ?_⟩⟩
  · exact Fragment.not_holdsToken_restoreAll fresh nodes
  · exact Fragment.shapeOfAll_restoreAll _ nodes
  · exact Fragment.restoreAll_restoreAll fresh nodes
  · exact fresh.not_holdsToken_restoreJson value
  · exact fresh.restoreJson_restoreJson value

end Mask

end UiMarkdown
