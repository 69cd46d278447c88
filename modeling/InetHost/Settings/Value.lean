/-! Configuration documents: nested tables of plain values. A key that is missing or whose value
has another type than the one asked for counts as not set. -/

namespace InetHost.Settings

inductive Value
  | integer (value : Int)
  | fraction (mantissa : Int) (places : Nat)
  | text (value : String)
  | boolean (value : Bool)
  | other (value : String)
  | array (items : List Value)
  | table (entries : List (String × Value))

namespace Value

def empty : Value := table []

instance : Inhabited Value := ⟨empty⟩

def get? (key : String) : Value → Option Value
  | table entries => entries.lookup key
  | _ => none

def integer? : Value → Option Int
  | integer value => some value
  | _ => none

def text? : Value → Option String
  | text value => some value
  | _ => none

def setting? (document : Value) (heading key : String) : Option Value :=
  (document.get? heading).bind fun section_ => section_.get? key

def integerOr (document : Value) (heading key : String) (default : Int) : Int :=
  ((document.setting? heading key).bind integer?).getD default

def textOr (document : Value) (heading key : String) (default : String) : String :=
  ((document.setting? heading key).bind text?).getD default

end Value

end InetHost.Settings
