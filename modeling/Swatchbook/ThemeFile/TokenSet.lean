import Swatchbook.Naming
import Swatchbook.Resolution.Search
import Swatchbook.Text.Blank
import Swatchbook.Theme
import Swatchbook.ThemeFile.TokenRecord
/-!
Token sets: a tree of color tokens under `color` and the themes declared under `$themes`. The tree is
flattened to one token for each path of keys; resolving them gives the colors that all declared themes
share.
-/
namespace Swatchbook

open Json (Draft Flaw Mismatch Shape Reading)
open TokenRecord (Declaration Declarations Modify)

inductive TokenSetError where
  | json (flaw : Flaw)
  | token (path : String) (cause : Mismatch)
  | notAToken (path : String)
  | nonStringValue (path : String)
  | invalidAmount (path amount : String)
  | mixColorMissing (path : String)
  | unnamedTheme (index : Nat)
  | notATokenSet

def TokenSetError.message : TokenSetError → String
  | json flaw => "invalid JSON: " ++ flaw.message
  | token path cause => "color token `" ++ path ++ "`: " ++ cause.message
  | notAToken path => "color entry `" ++ path ++ "` is neither a token nor a group"
  | nonStringValue path => "color token `" ++ path ++ "` has no string value"
  | invalidAmount path amount =>
    "color token `" ++ path ++ "` has a non-numeric modifier amount " ++ Text.quote amount
  | mixColorMissing path => "color token `" ++ path ++ "`: " ++ Operation.mixColorMissing
  | unnamedTheme index => "theme #" ++ toString index ++ " in $themes has neither a name nor an id"
  | notATokenSet => "no `color` category or `$themes`"

structure DeclaredTheme where
  displayName : String
  identifier : String
deriving DecidableEq, Repr

/-- What a token set comes to: its flattened color tokens, unless it has no `color` at all, and the
themes it declares. -/
structure TokenSet where
  tokens : Option (Dict Token)
  themes : List DeclaredTheme

namespace TokenSet

/-! ### Flattening -/

def isToken (members : List (String × Json)) : Bool :=
  (members.lookup "$value").isSome ||
    match members.lookup "value" with
    | some (.object _) => (members.lookup "type").isSome
    | some _ => true
    | none => false

/-- The type that a group hands down: its own, or the one handed to it. -/
def groupType (members : List (String × Json)) (inherited : Option String) : Option String :=
  match members.lookup "$type" with
  | some (.text t) => some t
  | _ => inherited

def pathTo (group key : String) : String :=
  if group.isEmpty then key else group ++ "." ++ key

/-- A number, or text that denotes one; blanks around it do not count. -/
def amount (path : String) : TokenRecord.Amount → Except TokenSetError Float
  | .number x => .ok x
  | .text s =>
    match Decimal.readAmount? (String.ofList (Text.trim s.toList)) with
    | some x => .ok x
    | none => .error (.invalidAmount path s)

/-- An adjustment with an operation that is not known is left out with a warning. -/
def adjustment (path : String) (m : Modify) : Logged TokenSetError (Option Adjustment) :=
  match amount path m.value with
  | .error e => .fail e
  | .ok x =>
    match Operation.named m.type m.color with
    | .known operation => pure (some ⟨operation, x, m.space⟩)
    | .incomplete => .fail (.mixColorMissing path)
    | .unknown => ⟨.ok none, [.unknownOperation path m.type]⟩

/-- The token with the given fields, or none if it is of another kind than color. -/
def tokenOf (path : String) (inherited : Option String) (fields : TokenRecord.Fields) :
    Logged TokenSetError (Option Token) :=
  match TokenKind.ofName (fields.type? <|> inherited) with
  | .other _ => pure none
  | .color =>
    match fields.value? with
    | some (.text value) =>
      match fields.modify? with
      | none => pure (some ⟨ColorValue.classify value, none⟩)
      | some m => do
        let a ← adjustment path m
        return some ⟨ColorValue.classify value, a⟩
    | _ => .fail (.nonStringValue path)

def tokenAt (path : String) (inherited : Option String) (members : List (String × Json)) :
    Logged TokenSetError (List (String × Token)) :=
  match TokenRecord.readFields members with
  | .error e => .fail (.token path e)
  | .ok fields => do
    let token? ← tokenOf path inherited fields
    return token?.toList.map fun t => (path, t)

mutual

def entryTokens (path : String) (inherited : Option String) :
    Json → Logged TokenSetError (List (String × Token))
  | .object members =>
    if isToken members then tokenAt path inherited members
    else groupTokens path (groupType members inherited) members
  | _ => .fail (.notAToken path)

def groupTokens (path : String) (type : Option String) :
    List (String × Json) → Logged TokenSetError (List (String × Token))
  | [] => pure []
  | (key, entry) :: rest =>
    if key.toList.head? = some '$' then groupTokens path type rest
    else do
      let here ← entryTokens (pathTo path key) type entry
      let others ← groupTokens path type rest
      return here ++ others

end

/-- The tokens below `color`. Keys are taken in order, and of two tokens with one path the later
counts. -/
def flatten (color : List (String × Json)) : Logged TokenSetError (Dict Token) := do
  let members := Json.sortedMembers color
  let tokens ← groupTokens "" (groupType members none) members
  return Dict.ofList tokens

/-! ### Declared themes -/

def declare (displayName : String) (identifier : Option String) : DeclaredTheme :=
  ⟨displayName, identifier.getD (Naming.identifier displayName)⟩

/-- A declaration in a row is named by its name or its id. -/
def declareListed (index : Nat) : List Declaration → Except TokenSetError (List DeclaredTheme)
  | [] => .ok []
  | d :: r =>
    match d.name <|> d.id.map Naming.displayName with
    | none => .error (.unnamedTheme index)
    | some name => (declareListed (index + 1) r).map (declare name d.identifier :: ·)

def declareKeyed (key : String) (d : Declaration) : DeclaredTheme :=
  declare (d.name.getD (Naming.displayName key)) d.identifier

def declaredThemes : Option Declarations → Except TokenSetError (List DeclaredTheme)
  | none => .ok []
  | some (.keyed ds) => .ok (ds.entries.map fun e => declareKeyed e.1 e.2)
  | some (.listed ds) => declareListed 0 ds

/-! ### Reading -/

inductive Field where
  | color
  | themes

structure Fields where
  color : Option (Option (List (String × Json))) := none
  themes : Option (Option Declarations) := none

def asMembers : Draft → Except Flaw (List (String × Json))
  | .object members stop =>
    (Draft.decode (Json.maxDepth - 1) (.object members stop)).bind fun
      | .object members => .ok members
      | _ => .error .mismatched
  | d => .error d.unwanted

def asDeclarations (d : Draft) : Except Flaw Declarations :=
  (d.decode (Json.maxDepth - 1)).bind fun v =>
    (TokenRecord.readDeclarations v).mapError fun _ => .mismatched

def shape : Shape Field Draft Flaw Fields where
  fields := [.color, .themes]
  label
    | .color => "color"
    | .themes => "$themes"
  named
    | "color" => some .color
    | "$themes" => some .themes
    | _ => none
  given s
    | .color => s.color.isSome
    | .themes => s.themes.isSome
  read s f d :=
    match f with
    | .color => (d.orNull asMembers).map fun v => { s with color := some v }
    | .themes => (d.orNull asDeclarations).map fun v => { s with themes := some v }

def fieldsOf (r : Reading) : Except Flaw Fields := do
  let s ← shape.fromDraft {} r.root
  if r.trailing then .error .malformed else .ok s

/-- Reads a token set. Its tokens are looked at before its themes. -/
def read (r : Reading) : Logged TokenSetError TokenSet := do
  let fields ← Logged.lift ((fieldsOf r).mapError .json)
  let tokens ← match fields.color.join with
    | none => pure none
    | some color => some <$> flatten color
  let themes ← Logged.lift (declaredThemes fields.themes.join)
  return ⟨tokens, themes⟩

def declaresTokens (s : TokenSet) : Bool :=
  s.tokens.isSome || !s.themes.isEmpty

/-- The themes of a token set, all with the same colors; a set that declares none is one theme named
after its file. -/
def themesNamed (s : TokenSet) (stem : String) : Logged ResolveError (List Theme) :=
  match s.tokens with
  | none => pure []
  | some tokens => do
    let colors ← resolve tokens
    let declared :=
      if s.themes.isEmpty then [⟨Naming.displayName stem, Naming.identifier stem⟩] else s.themes
    return declared.map fun d =>
      { displayName := d.displayName, identifier := d.identifier, colors }

end TokenSet

end Swatchbook
