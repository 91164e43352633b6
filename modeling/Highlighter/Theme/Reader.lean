import Highlighter.Color.Reader
import Highlighter.Json.Schema
import Highlighter.Theme.Basic

set_option autoImplicit false

namespace Highlighter.Theme

def scopesShape : Json.Shape String := fun room json =>
  match json with
  | .text value => value
  | _ => (Json.Shape.listOf Json.Shape.text room json).map (", ".intercalate ·)

def styleShape : Json.Shape Setting := fun room json => do
  let (room, values) ← Json.Shape.parts
    [⟨["foreground"], false⟩, ⟨["background"], false⟩, ⟨["fontStyle"], false⟩] room json
  let texts ← values.mapM (Json.Shape.partOr none (Json.Shape.optional Json.Shape.text) room)
  match texts with
  | [foreground, background, font] =>
    return { Setting.empty with
      foreground := foreground >>= Color.ofHex?
      background := background >>= Color.ofHex?
      font := font.map FontStyle.ofText }
  | _ => none

def settingShape : Json.Shape Setting := fun room json => do
  let (room, values) ← Json.Shape.parts [⟨["scope"], false⟩, ⟨["settings"], true⟩] room json
  match values with
  | [scope, style] =>
    let selector ← Json.Shape.partOr none (Json.Shape.optional scopesShape) room scope
    let setting ← Json.Shape.partOr Setting.empty styleShape room style
    return { setting with selector }
  | _ => none

def themeShape : Json.Shape Theme := fun room json => do
  let (room, values) ← Json.Shape.parts
    [⟨["name"], false⟩, ⟨["settings", "tokenColors"], true⟩] room json
  match values with
  | [name, settings] =>
    let name ← Json.Shape.partOr none (Json.Shape.optional Json.Shape.text) room name
    let settings ← Json.Shape.partOr [] (Json.Shape.listOf settingShape) room settings
    return ofSettings name [] settings
  | _ => none

def ofJson? (json : Json) : Option Theme := themeShape Json.wholeRoom json

def ofJsonText? (source : String) : Option Theme := Json.read? source >>= ofJson?

end Highlighter.Theme
