import Highlighter.Line.Reader

set_option autoImplicit false

namespace Highlighter

variable {shelf : List Theme}

abbrev StyleMemos (shelf : List Theme) :=
  (theme : Fin shelf.length) → Memo (Grammar.resolveStyle (some (shelf.get theme)))

namespace StyleMemos

def empty (shelf : List Theme) : StyleMemos shelf := fun _ => Memo.empty _

def of (memos : StyleMemos shelf) :
    (inForce : Option (Fin shelf.length)) → Memo (Grammar.resolveStyle (inForce.map shelf.get))
  | none => Memo.empty _
  | some theme => memos theme

def put (memos : StyleMemos shelf) (theme : Fin shelf.length)
    (memo : Memo (Grammar.resolveStyle (some (shelf.get theme)))) : StyleMemos shelf :=
  fun other => if same : theme = other then same ▸ memo else memos other

def putBack (memos : StyleMemos shelf) :
    (inForce : Option (Fin shelf.length)) →
      Memo (Grammar.resolveStyle (inForce.map shelf.get)) → StyleMemos shelf
  | none, _ => memos
  | some theme, memo => memos.put theme memo

end StyleMemos

structure Session (grammar : Grammar) (shelf : List Theme) where
  patterns : PatternCache
  traits : Memo grammar.languages.traits
  styles : StyleMemos shelf
  inForce : Option (Fin shelf.length)

inductive Call (shelf : List Theme) where
  | read (line : String) (prior : Option Stack) (checks : Option Nat) (isPacked : Bool)
  | style (theme : Fin shelf.length) (path : List String)
  | use (theme : Option (Fin shelf.length))

inductive Answer where
  | line (result : LineResult)
  | style (style : Option Style)
  | done

namespace Session

variable {grammar : Grammar}

def fresh (grammar : Grammar) (shelf : List Theme) : Session grammar shelf :=
  ⟨PatternCache.empty, Memo.empty _, StyleMemos.empty shelf, none⟩

def painted (session : Session grammar shelf) : Grammar :=
  grammar.withTheme (session.inForce.map shelf.get)

def caches (session : Session grammar shelf) : Caches session.painted :=
  ⟨session.patterns, session.traits, session.styles.of session.inForce⟩

def keep (session : Session grammar shelf) (caches : Caches session.painted) :
    Session grammar shelf :=
  { session with
    patterns := caches.patterns
    traits := caches.traits
    styles := session.styles.putBack session.inForce caches.styles }

def read (depth : Nat) (session : Session grammar shelf) (line : String) (prior : Option Stack)
    (checks : Option Nat) (isPacked : Bool) : LineResult × Session grammar shelf :=
  let (result, caches) := (Grammar.tokenize depth line prior checks isPacked).run session.caches
  (result, session.keep caches)

def style (session : Session grammar shelf) (theme : Fin shelf.length) (path : List String) :
    Option Style × Session grammar shelf :=
  let (style, memo) := (session.styles theme).get path
  (style, { session with styles := session.styles.put theme memo })

def perform (depth : Nat) (session : Session grammar shelf) :
    Call shelf → Answer × Session grammar shelf
  | .read line prior checks isPacked =>
    let (result, session) := session.read depth line prior checks isPacked
    (.line result, session)
  | .style theme path =>
    let (style, session) := session.style theme path
    (.style style, session)
  | .use theme => (.done, { session with inForce := theme })

def play (depth : Nat) (session : Session grammar shelf) :
    List (Call shelf) → List Answer × Session grammar shelf
  | [] => ([], session)
  | call :: rest =>
    let (answer, session) := session.perform depth call
    let (answers, session) := session.play depth rest
    (answer :: answers, session)

def forget (session : Session grammar shelf) : Session grammar shelf :=
  { fresh grammar shelf with inForce := session.inForce }

end Session

end Highlighter
