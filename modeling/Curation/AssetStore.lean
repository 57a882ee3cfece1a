import Curation.Icon
import Curation.S3Store

/-! What settings say of the blobs: the store that keeps them, and where icons are placed in it. -/

namespace Curation

/-- The store that settings name. -/
inductive AssetStore where
  | files (s : LocalStore)
  | bucket (s : S3Store)

/-- The store of an installation whose relative paths start at a home. -/
def Settings.assetStore (s : Settings) (home : List String := []) : AssetStore :=
  match s.backend with
  | .local => .files ⟨Files.Path.ofText s.storagePath, home⟩
  | .s3 => .bucket {
      settings := {
        bucket := s.bucket.getD "", region := s.region, accessKeyId := s.accessKeyId
        secretAccessKey := s.secretAccessKey, endpointUrl := s.endpointUrl } }

/-- Where settings place icons that a library reads. -/
def Icon.Place.ofSettings (s : Settings) (images : Image.Library := {}) : Icon.Place :=
  { cdn := s.cdnUrl, space := s.iconSpace, maxSize := s.maxIconSize, images }

end Curation
