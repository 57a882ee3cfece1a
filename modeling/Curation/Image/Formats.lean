import Curation.Image.Anymap
import Curation.Image.Bitmap
import Curation.Image.Library
import Curation.Image.Network

/-! A library for images that reads three formats without compression, and merges no colours. -/

namespace Curation.Image

/-- The image in the data, if it is one of a format that is read and of an allowed size. -/
def decode? (data : ByteArray) : Option Raster :=
  ((Anymap.decode? data).orElse fun _ =>
    (Bitmap.decode? data).orElse fun _ => Network.decode? data).filter (·.sized)

/-- The colours of pixels as they are, if they are not too many. -/
def keepColors (most : Nat) (pixels : List Rgb) : Option Reduced :=
  let colors := pixels.eraseDups
  if most < colors.length then none
  else some {
    counts := colors.zipIdx.map fun c => (pixels.count c.1, c.2)
    palette := fun i => colors[i]?.getD .black }

def Library.plain : Library where
  decode := decode?
  reduce := keepColors

end Curation.Image
