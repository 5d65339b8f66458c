import Roomscape.Picture.Bmp
import Roomscape.Picture.Gif
import Roomscape.Picture.Icon
import Roomscape.Picture.Pam
import Roomscape.Picture.Png
import Roomscape.Picture.Qoi
import Roomscape.Picture.Tga
import Roomscape.Picture.Tiff
import Roomscape.Picture.Webp
import Roomscape.UnixPath

/-!
The forms a picture file may have. The end of the file's name tells which one is wanted.
-/
namespace Roomscape

inductive PictureFormat where
  | png
  | bmp
  | gif
  | icon
  | pam
  | qoi
  | tga
  | tiff
  | webp
  /-- A known form that is not written: it has no alpha channel of eight bits. -/
  | unsuited
deriving DecidableEq

namespace PictureFormat

def ofExtension? (extension : String) : Option PictureFormat :=
  match extension.toLower with
  | "png" | "apng" => some .png
  | "bmp" => some .bmp
  | "gif" => some .gif
  | "ico" => some .icon
  | "pam" | "pbm" | "pgm" | "pnm" | "ppm" => some .pam
  | "qoi" => some .qoi
  | "tga" => some .tga
  | "tif" | "tiff" => some .tiff
  | "webp" => some .webp
  | "avif" | "dds" | "exr" | "ff" | "hdr" | "jfif" | "jpeg" | "jpg" => some .unsuited
  | _ => none

def ofName? (path : UnixPath) : Option PictureFormat := path.extension?.bind ofExtension?

def longestSide : PictureFormat → Nat
  | .icon => 256
  | .webp => 16384
  | .gif | .tga => 65535
  | .bmp | .pam | .png | .qoi | .tiff => Picture.sideSpace - 1
  | .unsuited => 0

def holds (f : PictureFormat) (p : Picture) : Bool :=
  !p.isEmpty && p.width ≤ f.longestSide && p.height ≤ f.longestSide

def encode : PictureFormat → Picture → List UInt8
  | .png => Png.encode
  | .bmp => Bmp.encode
  | .gif => Gif.encode
  | .icon => Icon.encode
  | .pam => Pam.encode
  | .qoi => Qoi.encode
  | .tga => Tga.encode
  | .tiff => Tiff.encode
  | .webp => Webp.encode
  | .unsuited => fun _ => []

/-- What the file holds after an attempt to write the picture. It stays empty if that fails. -/
def bytes (f : PictureFormat) (p : Picture) : List UInt8 := if f.holds p then f.encode p else []

end PictureFormat
end Roomscape
