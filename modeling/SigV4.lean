import SigV4.Authorization
import SigV4.Buffer
import SigV4.Clock
import SigV4.Credentials
import SigV4.Digest.Hmac
import SigV4.Digest.Sha256
import SigV4.Environment
import SigV4.Error
import SigV4.Header.Block
import SigV4.Header.Field
import SigV4.Presigned
import SigV4.Proofs.Acceptance
import SigV4.Proofs.Announced
import SigV4.Proofs.Authorization
import SigV4.Proofs.Buffer
import SigV4.Proofs.CanonicalPath
import SigV4.Proofs.Canonicalization
import SigV4.Proofs.CapturedTicks
import SigV4.Proofs.Channel
import SigV4.Proofs.Clock
import SigV4.Proofs.Encoding
import SigV4.Proofs.Expiry
import SigV4.Proofs.Header.Block
import SigV4.Proofs.Header.Field
import SigV4.Proofs.Header.Head
import SigV4.Proofs.Header.Insertion
import SigV4.Proofs.Header.Merge
import SigV4.Proofs.Header.Reachable
import SigV4.Proofs.ParameterBytes
import SigV4.Proofs.PlusSign
import SigV4.Proofs.Presigned
import SigV4.Proofs.Query
import SigV4.Proofs.Redacted
import SigV4.Proofs.Request.Canonical
import SigV4.Proofs.Request.Content
import SigV4.Proofs.Request.Outcome
import SigV4.Proofs.Request.Resigning
import SigV4.Proofs.Request.Signing
import SigV4.Proofs.Request.Stamp
import SigV4.Proofs.Retry
import SigV4.Proofs.Session
import SigV4.Proofs.Settings
import SigV4.Proofs.Signature
import SigV4.Proofs.Signer
import SigV4.Proofs.SigningDates
import SigV4.Proofs.SigningTimes
import SigV4.Proofs.Text.Blank
import SigV4.Proofs.Text.Cutting
import SigV4.Proofs.Text.Numeral
import SigV4.Proofs.Text.Percent
import SigV4.Proofs.Text.Utf8
import SigV4.Proofs.TextMap
import SigV4.Proofs.Time.Calendar
import SigV4.Proofs.Time.Form
import SigV4.Proofs.Time.Instant
import SigV4.Proofs.Time.Iso8601
import SigV4.Proofs.Time.Ntp
import SigV4.Proofs.Time.Order
import SigV4.Proofs.Time.RoundTrip
import SigV4.Proofs.Time.Unix
import SigV4.Proofs.Time.Writing
import SigV4.Proofs.Url
import SigV4.Proofs.UrlGrammar
import SigV4.Proofs.UrlParts
import SigV4.Proofs.Word
import SigV4.Query
import SigV4.Redacted
import SigV4.Request.Canonical
import SigV4.Request.Signing
import SigV4.Request.Uri
import SigV4.Session
import SigV4.Settings
import SigV4.Signature
import SigV4.Signer
import SigV4.Text.Basic
import SigV4.Text.Blank
import SigV4.Text.Hex
import SigV4.Text.Numeral
import SigV4.Text.Percent
import SigV4.Text.Quoted
import SigV4.Text.Utf8
import SigV4.Text.Visible
import SigV4.TextMap
import SigV4.Time.Calendar
import SigV4.Time.Instant
import SigV4.Time.Iso8601
import SigV4.Time.Ntp
import SigV4.Url
