import Roomscape.FileTree
import Roomscape.Main
import Roomscape.Proofs.Deliveries
import Roomscape.Proofs.PhotoReading
import Roomscape.Proofs.ScanOrders
import Roomscape.Proofs.PaletteBytes
import Roomscape.Proofs.Session
import Roomscape.Proofs.TaskRuns
import Roomscape.Proofs.RenderFaults
import Roomscape.Proofs.Listing
import Roomscape.Proofs.PaletteCommand
import Roomscape.Proofs.SharedImages
import Roomscape.Proofs.GuardedFills
import Roomscape.Proofs.RenderedFiles
import Roomscape.Proofs.PaletteMeans
import Roomscape.Proofs.SmallPalettes
import Roomscape.Proofs.InfoCommand
import Roomscape.Proofs.HistogramRuns
import Roomscape.Proofs.SpriteRows
import Roomscape.Proofs.PaletteRoundTrip
import Roomscape.Proofs.PictureDrawing
import Roomscape.Proofs.PathBases
import Roomscape.Proofs.Requantized
import Roomscape.Proofs.GuardedWindows
import Roomscape.Proofs.FileLoading
import Roomscape.Proofs.RoomNames
import Roomscape.Proofs.LooseGrids
import Roomscape.Proofs.WrappedDrawings
