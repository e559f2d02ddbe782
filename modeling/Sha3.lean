import Sha3.Buffering
import Sha3.CheckedPadding
import Sha3.Keccak.Inverse
import Sha3.Keccak.Sheet
import Sha3.Keccak.Walk
import Sha3.Message
import Sha3.Session.BlockHashers
import Sha3.Session.Hashers
import Sha3.Session.Histories
import Sha3.Session.Sponges
import Sha3.Spelling
import Sha3.Standard.Permutation
import Sha3.Standard.Sponge
import Sha3.Proofs.Blocks
import Sha3.Proofs.Keccak.Words
import Sha3.Proofs.Keccak.Inverse
import Sha3.Proofs.Keccak.Layout
import Sha3.Proofs.Keccak.Sheet
import Sha3.Proofs.Standard.Bits
import Sha3.Proofs.Standard.Permutation
import Sha3.Proofs.Standard.Sponge
import Sha3.Proofs.Session.Refinement
import Sha3.Proofs.Finalization
import Sha3.Proofs.Session.Sponges
import Sha3.Proofs.Buffering
import Sha3.Proofs.BlockHasher
import Sha3.Proofs.Hasher
import Sha3.Proofs.Session.Hashers
import Sha3.Proofs.Absorption
import Sha3.Proofs.Decoding
import Sha3.Proofs.Encoding
import Sha3.Proofs.ErrorTexts
import Sha3.Proofs.Frames
import Sha3.Proofs.Lookup
import Sha3.Proofs.Merging
import Sha3.Proofs.Padding
import Sha3.Proofs.Pieces
import Sha3.Proofs.Session.BlockHashers
import Sha3.Proofs.Session.Scratch
import Sha3.Session.Requests
import Sha3.Proofs.Session.Invariants
import Sha3.Proofs.Session.Faults
import Sha3.Proofs.Collisions
