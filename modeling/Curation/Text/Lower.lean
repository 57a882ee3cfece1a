/-! Lower case, as far as a name made of ASCII letters can tell: besides the ASCII capitals only the
    Kelvin sign has an ASCII letter as its lower case. -/

namespace Curation.Text

/-- The lower case of an ASCII letter and of the Kelvin sign; any other character is kept. -/
def lowerChar (c : Char) : Char := if c.toNat == 0x212a then 'k' else c.toLower

def lower (s : String) : String := String.ofList (s.toList.map lowerChar)

end Curation.Text
