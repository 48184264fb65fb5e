import CycloneCrypto.Bits
import CycloneCrypto.Cipher
import CycloneCrypto.Loop
import CycloneCrypto.Aes.Tables
import CycloneCrypto.Aes.Transform
import CycloneCrypto.Aes.Cipher
import CycloneCrypto.Fips197.Field
import CycloneCrypto.Fips197.Cipher
import CycloneCrypto.Aes.SBox
import CycloneCrypto.Aes.MixColumns
import CycloneCrypto.Aes.KeyExpansion
import CycloneCrypto.Aes.RoundTrip
import CycloneCrypto.Aes.Refinement
import CycloneCrypto.Aes.Footprint
import CycloneCrypto.Camellia.Tables
import CycloneCrypto.Rfc3713.Cipher
import CycloneCrypto.Rfc3713.Inverse
import CycloneCrypto.Camellia.Cipher
import CycloneCrypto.Camellia.Round
import CycloneCrypto.Camellia.Subkeys
import CycloneCrypto.Camellia.Block
import CycloneCrypto.Camellia.KeySchedule
import CycloneCrypto.Camellia.Refinement
import CycloneCrypto.Camellia.Footprint
import CycloneCrypto.Camellia.Reductions
import CycloneCrypto.Descriptors
