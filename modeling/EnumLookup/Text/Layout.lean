import EnumLookup.Text.Quoted

/-!
Columns of a report: widths count characters, and long numbers have their digits
grouped by thousands.
-/
namespace EnumLookup.Text

/-- Blanks after the text up to a width; a longer text is kept whole. -/
def padRight (width : Nat) (text : String) : String :=
  text ++ String.ofList (List.replicate (width - text.length) ' ')

def padLeft (width : Nat) (text : String) : String :=
  String.ofList (List.replicate (width - text.length) ' ') ++ text

/-- A comma after every third character, counted from the front. -/
def groupThrees : List Char → List Char
  | a :: b :: c :: d :: rest => a :: b :: c :: ',' :: groupThrees (d :: rest)
  | short => short

/-- Decimal digits, a comma between thousands. -/
def grouped (n : Nat) : String :=
  String.ofList (groupThrees (Nat.toDigits 10 n).reverse).reverse

def joinLines (lines : List String) : String := String.intercalate "\n" lines

end EnumLookup.Text
