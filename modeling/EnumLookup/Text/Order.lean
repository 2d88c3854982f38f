/-!
Texts in the order of their code points.
-/
namespace EnumLookup.Text

def sortedDistinct (texts : List String) : List String :=
  texts.eraseDups.mergeSort fun a b => a ≤ b

end EnumLookup.Text
